import ClipRender.Filter.Quoting

set_option autoImplicit false

/-!
How the engine reads a chain of filters. Two readers take quoting away in turn. To both, a backslash
makes the next character count as itself, and single quotes do so for all that stands between them.
The graph's reader cuts the chain at commas into filters; the option's reader cuts what is left of a
filter at colons into arguments, and blanks off the ends of their values.
-/

namespace ClipRender.Filter

/-- A character whose quoting a reader has taken away. Only a bare one, which had none, means
anything to that reader. -/
structure Mark where
  char : Char
  bare : Bool
deriving DecidableEq

def Mark.chars (marks : List Mark) : List Char := marks.map (·.char)

/-- Takes quoting away; the flag tells whether a quote is open. A backslash at the very end stands
for itself. -/
def unquote : Bool → List Char → List Mark
  | _, [] => []
  | true, c :: rest => if c = '\'' then unquote false rest else ⟨c, false⟩ :: unquote true rest
  | false, '\\' :: c :: rest => ⟨c, false⟩ :: unquote false rest
  | false, c :: rest => if c = '\'' then unquote true rest else ⟨c, true⟩ :: unquote false rest

/-- An argument of a filter; one without a name is told by its place. -/
structure Argument where
  name : Option String
  value : String
deriving DecidableEq

namespace Argument

def isNameChar (c : Char) : Bool := c.isAlphanum || c = '_'

def isBareBlank (m : Mark) : Bool := m.bare && isOptionBlank m.char

/-- Bare blanks at the ends are no part of a value. -/
def readValue (marks : List Mark) : String :=
  String.ofList (Mark.chars
    ((marks.dropWhile isBareBlank).reverse.dropWhile isBareBlank).reverse)

/-- A name has an equals sign behind it. -/
def read (marks : List Mark) : Argument :=
  let isName := fun m : Mark => m.bare && isNameChar m.char
  match marks.takeWhile isName, marks.dropWhile isName with
  | first :: more, ⟨'=', true⟩ :: value =>
    ⟨some (String.ofList (Mark.chars (first :: more))), readValue value⟩
  | _, _ => ⟨none, readValue marks⟩

end Argument

structure Call where
  filter : String
  arguments : List Argument
deriving DecidableEq

namespace Call

def read (cs : List Char) : Call where
  filter := String.ofList (cs.takeWhile (· ≠ '='))
  arguments :=
    match cs.dropWhile (· ≠ '=') with
    | [] => []
    | _ :: arguments => ((unquote false arguments).splitOn ⟨':', true⟩).map Argument.read

/-- Labels and the start of another chain end a chain. -/
def endsChain (m : Mark) : Bool := m.bare && (m.char = '[' || m.char = ']' || m.char = ';')

/-- The filters of a chain, if the text is one chain and nothing else. -/
def readChain? (cs : List Char) : Option (List Call) :=
  let marks := unquote false cs
  if marks.any endsChain then none
  else some ((marks.splitOn ⟨',', true⟩).map fun marks => read (Mark.chars marks))

end Call

end ClipRender.Filter
