set_option autoImplicit false

/-!
Text inside a filter option. Two readers take escapes away in turn: the graph's and the option's.
The option's reader also cuts blanks off the ends, so blanks there are escaped too.
-/

namespace ClipRender.Filter

def escapeChars (special : Char → Bool) (cs : List Char) : List Char :=
  cs.flatMap fun c => if special c then ['\\', c] else [c]

def escapeChar (c : Char) (cs : List Char) : List Char := escapeChars (· = c) cs

/-- The text for the option's reader. Backslashes come first, so that those put before quotes and
colons stay single. -/
def escapeOption (cs : List Char) : List Char :=
  escapeChar ':' (escapeChar '\'' (escapeChar '\\' cs))

/-- What the graph's reader takes for its own. -/
def isGraphSpecial (c : Char) : Bool :=
  c = '\\' || c = '\'' || c = '[' || c = ']' || c = ',' || c = ';'

def escapeGraph (cs : List Char) : List Char := escapeChars isGraphSpecial cs

/-- What the option's reader cuts off the ends of a value. -/
def isOptionBlank (c : Char) : Bool := c = ' ' || c = '\n' || c = '\t' || c = '\r'

def escapeEdges (cs : List Char) : List Char :=
  let leading := cs.takeWhile isOptionBlank
  let rest := cs.dropWhile isOptionBlank
  let trailing := (rest.reverse.takeWhile isOptionBlank).reverse
  let body := rest.take (rest.length - trailing.length)
  escapeChars isOptionBlank leading ++ body ++ escapeChars isOptionBlank trailing

def embed (cs : List Char) : List Char := escapeGraph (escapeEdges (escapeOption cs))

def embedText (s : String) : String := String.ofList (embed s.toList)

end ClipRender.Filter
