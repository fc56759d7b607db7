set_option autoImplicit false

/-!
Paths, and the trails along which the file system walks. In a path repeated slashes, single dots and
a slash at the end mean nothing; two dots stay, and so do exactly two slashes at the start. A trail
is a text taken as it is, in which single dots are steps too.
-/

namespace ClipRender.Files

/-- Where a path starts: at no fixed place, or at one of two roots. -/
inductive Anchor where
  | relative
  | root
  | doubleRoot
deriving DecidableEq

def Anchor.text : Anchor → String
  | .relative => ""
  | .root => "/"
  | .doubleRoot => "//"

structure Path where
  anchor : Anchor
  names : List String
deriving DecidableEq

/-- The texts between slashes, empty ones included. -/
def pieces : List Char → List (List Char)
  | [] => [[]]
  | c :: rest =>
    if c = '/' then [] :: pieces rest
    else
      match pieces rest with
      | [] => [[c]]
      | first :: more => (c :: first) :: more

/-- The names on a path as written, without empty ones. -/
def namesOf (s : String) : List String :=
  ((pieces s.toList).filter (!·.isEmpty)).map String.ofList

def anchorOf : List Char → Anchor
  | '/' :: '/' :: '/' :: _ => .root
  | '/' :: '/' :: _ => .doubleRoot
  | '/' :: _ => .root
  | _ => .relative

/-- What the file system is asked to walk. -/
structure Trail where
  anchor : Anchor
  names : List String
  /-- Whether it ends with a slash, which asks for a directory. -/
  slashed : Bool
  size : Nat
deriving DecidableEq

namespace Trail

def ofText (s : String) : Trail :=
  ⟨anchorOf s.toList, namesOf s, s.toList.getLast? = some '/', s.utf8ByteSize⟩

/-- The steps of the walk. A step to a dot is one from a directory to itself. -/
def steps (trail : Trail) : List String := trail.names ++ if trail.slashed then ["."] else []

end Trail

namespace Path

def ofText (s : String) : Path := ⟨anchorOf s.toList, (namesOf s).filter (· ≠ ".")⟩

def text (p : Path) : String :=
  let s := p.anchor.text ++ String.intercalate "/" p.names
  if s.isEmpty then "." else s

def trail (p : Path) : Trail := ⟨p.anchor, p.names, false, p.text.utf8ByteSize⟩

instance : Coe Path Trail := ⟨trail⟩

def child (p : Path) (name : String) : Path := { p with names := p.names ++ [name] }

def name? (p : Path) : Option String := p.names.getLast?

/-- Where an output is written until it is complete: beside it, under a hidden name. -/
def partial? (p : Path) : Option Path :=
  p.name?.map fun name => { p with names := p.names.dropLast ++ ["." ++ name ++ ".part"] }

end Path

/-- What stands before the last name of a text, and before the slashes in front of it unless there
is nothing else. The text is read from its end, as is the result; a text of slashes has no last
name. -/
def above? (reversed : List Char) : Option (List Char × String) :=
  let body := reversed.dropWhile (· = '/')
  if body.isEmpty then none
  else
    let before := body.dropWhile (· ≠ '/')
    let head := before.dropWhile (· = '/')
    some (if head.isEmpty then before else head, String.ofList (body.takeWhile (· ≠ '/')).reverse)

end ClipRender.Files
