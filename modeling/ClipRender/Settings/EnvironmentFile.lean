import ClipRender.Text.Blank

set_option autoImplicit false

/-!
Files of environment variables, one to a line: a name, an equals sign and a value, which may stand
in quotes. What follows a hash sign is a comment, and a line that does not fit is skipped.
-/

namespace ClipRender.EnvironmentFile

def isInlineBlank (c : Char) : Bool := Text.isBlank c && c ≠ '\n' && c ≠ '\r'

def afterLine (cs : List Char) : List Char := (cs.dropWhile (· ≠ '\n')).drop 1

def unifyLines : List Char → List Char
  | '\r' :: '\n' :: rest => '\n' :: unifyLines rest
  | '\r' :: rest => '\n' :: unifyLines rest
  | c :: rest => c :: unifyLines rest
  | [] => []

/-- A part of a line and what follows it; none where the line does not fit. -/
abbrev Part (α : Type) := Option (α × List Char)

/-- The text in quotes whose opening quote is gone. A backslash and the character after it are text,
whatever that character is. -/
def quotedText (quote : Char) : List Char → Part (List Char)
  | [] => none
  | ['\\'] => none
  | '\\' :: e :: rest =>
    (quotedText quote rest).map fun (inner, after) => ('\\' :: e :: inner, after)
  | c :: rest =>
    if c = quote then some ([], rest)
    else (quotedText quote rest).map fun (inner, after) => (c :: inner, after)

def singleEscape (c : Char) : Option Char := if c = '\\' ∨ c = '\'' then some c else none

def doubleEscapes : List (Char × Char) :=
  [('\\', '\\'), ('\'', '\''), ('"', '"'), ('a', '\x07'), ('b', '\x08'), ('f', '\x0c'),
   ('n', '\n'), ('r', '\r'), ('t', '\t'), ('v', '\x0b')]

def doubleEscape (c : Char) : Option Char := doubleEscapes.lookup c

def withoutEscapes (meaning : Char → Option Char) : List Char → List Char
  | '\\' :: e :: rest =>
    match meaning e with
    | some c => c :: withoutEscapes meaning rest
    | none => '\\' :: withoutEscapes meaning (e :: rest)
  | c :: rest => c :: withoutEscapes meaning rest
  | [] => []

def untilComment : List Char → List Char
  | [] => []
  | c :: rest =>
    if Text.isBlank c && (rest.dropWhile Text.isBlank).head? = some '#' then []
    else c :: untilComment rest

def plainValue (cs : List Char) : List Char :=
  Text.trim Text.isBlank (untilComment (cs.takeWhile (· ≠ '\n')))

def value (cs : List Char) : Part (List Char) :=
  match cs.dropWhile isInlineBlank with
  | '\'' :: rest =>
    (quotedText '\'' rest).map fun (v, after) => (withoutEscapes singleEscape v, after)
  | '"' :: rest =>
    (quotedText '"' rest).map fun (v, after) => (withoutEscapes doubleEscape v, after)
  | _ => some (plainValue cs, cs.dropWhile (· ≠ '\n'))

/-- The name; none inside for a line that is a comment. -/
def name (cs : List Char) : Part (Option String) :=
  match cs with
  | '#' :: _ => some (none, cs)
  | '\'' :: rest =>
    let inner := rest.takeWhile (· ≠ '\'')
    match rest.dropWhile (· ≠ '\'') with
    | _ :: after => if inner.isEmpty then none else some (some (String.ofList inner), after)
    | [] => none
  | _ =>
    let isName := fun c => c ≠ '=' && c ≠ '#' && !Text.isBlank c
    let word := cs.takeWhile isName
    if word.isEmpty then none else some (some (String.ofList word), cs.dropWhile isName)

/-- The word `export` with the blanks behind it may stand in front of a name. -/
def skipExport (cs : List Char) : List Char :=
  if "export".toList.isPrefixOf cs && ((cs.drop 6).head?.any isInlineBlank) then
    (cs.drop 6).dropWhile isInlineBlank
  else cs

def lineEnd (cs : List Char) : Option (List Char) :=
  match cs.dropWhile isInlineBlank with
  | [] => some []
  | '\n' :: rest => some rest
  | '#' :: rest => some (afterLine rest)
  | _ => none

/-- A name with its value, or without one where no equals sign follows. -/
abbrev Binding := Option String × Option (List Char)

def valueAfterName (cs : List Char) : Part (Option (List Char)) :=
  match cs.dropWhile isInlineBlank with
  | '=' :: rest => (value rest).map fun (v, after) => (some v, after)
  | after => some (none, after)

/-- The line at the head, and where the text goes on; that is also told of a line that does not
fit. -/
def line (cs : List Char) : Option Binding × List Char :=
  match name (skipExport cs) with
  | none => (none, afterLine (skipExport cs))
  | some (key, afterName) =>
    match valueAfterName afterName with
    | none => (none, afterLine afterName)
    | some (v, afterValue) =>
      match lineEnd afterValue with
      | none => (none, afterLine afterValue)
      | some rest => (some (key, v), rest)

/-- The variables in order. The fuel bounds the number of lines. -/
def bindings (fuel : Nat) (cs : List Char) : List (String × Option (List Char)) :=
  match fuel with
  | 0 => []
  | fuel + 1 =>
    match cs.dropWhile Text.isBlank with
    | [] => []
    | cs =>
      match line cs with
      | (some (some key, v), rest) => (key, v) :: bindings fuel rest
      | (_, rest) => bindings fuel rest

/-- A reference whose opening `$` and brace are gone: a name, the text that stands in for it where
it is unset, and what follows the closing brace. -/
def reference (cs : List Char) : Part (String × String) :=
  let isName := fun c => c ≠ '\x7d' && c ≠ ':'
  let key := String.ofList (cs.takeWhile isName)
  match cs.dropWhile isName with
  | '\x7d' :: rest => some ((key, ""), rest)
  | ':' :: '-' :: rest =>
    match rest.dropWhile (· ≠ '\x7d') with
    | _ :: after => some ((key, String.ofList (rest.takeWhile (· ≠ '\x7d'))), after)
    | [] => none
  | _ => none

/-- The text with each reference replaced. The fuel bounds the number of steps. -/
def expand (known : String → Option String) (fuel : Nat) (cs : List Char) : List Char :=
  match fuel, cs with
  | 0, cs => cs
  | _, [] => []
  | fuel + 1, '$' :: '\x7b' :: rest =>
    match reference rest with
    | some ((key, otherwise), after) =>
      ((known key).getD otherwise).toList ++ expand known fuel after
    | none => '$' :: expand known fuel ('\x7b' :: rest)
  | fuel + 1, c :: rest => c :: expand known fuel rest

/-- A variable set anew keeps its place. -/
def put (key : String) (v : Option String) (done : List (String × Option String)) :
    List (String × Option String) :=
  if done.any (·.1 = key) then done.map fun d => if d.1 = key then (key, v) else d
  else done ++ [(key, v)]

/-- The variables that a file sets, each after those before it were filled in. A variable without a
value counts as empty where another refers to it. -/
def fill (outside : List (String × String)) :
    List (String × Option String) → List (String × Option (List Char)) →
      List (String × Option String)
  | done, [] => done
  | done, (key, v) :: rest =>
    let known := fun name =>
      match done.lookup name with
      | some found => some (found.getD "")
      | none => outside.lookup name
    let filled := v.map fun cs => String.ofList (expand known (cs.length + 1) cs)
    fill outside (put key filled done) rest

def withoutMark : List Char → List Char
  | '\ufeff' :: rest => rest
  | cs => cs

/-- All variables of a file; `outside` are those set already. -/
def read (outside : List (String × String)) (text : String) : List (String × Option String) :=
  let cs := unifyLines (withoutMark text.toList)
  fill outside [] (bindings (cs.length + 1) cs)

end ClipRender.EnvironmentFile
