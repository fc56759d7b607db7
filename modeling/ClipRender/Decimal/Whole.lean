import ClipRender.Decimal.Literal
import ClipRender.Text.Blank

set_option autoImplicit false

/-!
Numerals for whole numbers as they are read where no form is laid down: blanks around them, a sign,
and digits that single underscores may group.
-/

namespace ClipRender.Decimal

/-- Whether underscores stand only inside, each on its own. -/
def hasLoneUnderscores : List Char → Bool
  | [] => true
  | cs => cs.head? != some '_' && cs.getLast? != some '_'
      && !(cs.zip cs.tail).any fun (a, b) => a = '_' && b = '_'

def digitLimit : Nat := 4300

def whole? (cs : List Char) : Option Int :=
  let (negative, body) := signed (Text.trim Text.isBlank cs)
  let digits := body.filter (· ≠ '_')
  if hasLoneUnderscores body && !digits.isEmpty && digits.all Char.isDigit
      && digits.length ≤ digitLimit then
    some (if negative then -(digitsValue digits : Int) else digitsValue digits)
  else none

end ClipRender.Decimal
