import ClipRender.Files.Canonical

set_option autoImplicit false

/-!
Where the source video of an export lies. Of a reference only the part after the last slash or
backslash counts, and what it leads to must be a file below the input directory.
-/

namespace ClipRender.Source

open Files (Tree Path)

def isIdChar (c : Char) : Bool := c.isAlphanum || c = '_' || c = '-'

def idLimit : Nat := 40

/-- An id as part of a file name: other characters become underscores, and the length is capped. -/
def sanitizeId (s : String) : String :=
  String.ofList ((s.toList.map fun c => if isIdChar c then c else '_').take idLimit)

def lastName (reference : String) : String :=
  String.ofList (reference.toList.reverse.takeWhile fun c => c ≠ '/' ∧ c ≠ '\\').reverse

/-- A name without a dot is the id under which a video was downloaded. -/
def fileName (name : String) : String :=
  if name.toList.contains '.' then name else sanitizeId name ++ ".mp4"

def isBelow (directory path : Path) : Bool :=
  directory.anchor = path.anchor && directory.names.isPrefixOf path.names
    && directory.names.length < path.names.length

/-- The path of the file that a reference names; the absent reference names none. -/
def resolve (tree : Tree) (inputDirectory : Path) (reference : Option String) :
    Except Failure Path := do
  let name := lastName (reference.getD "")
  if name = "" ∨ name = "." ∨ name = ".." then .error (.reported (.invalidReference reference))
  else
    -- Links lead on in both paths before they are compared, name by name.
    let directory ← tree.canonical inputDirectory
    let path ← tree.canonical (directory.child (fileName name))
    if !isBelow directory path then .error (.reported (.invalidReference reference))
    else
      match tree.file? path with
      | .ok (some _) => .ok path
      | .ok none => .error (.reported .sourceMissing)
      | .error fault => .error (.file fault)

end ClipRender.Source
