import ClipRender.Decimal.Fixed

set_option autoImplicit false

/-!
Numbers in filter options: six places at most, without trailing zeros, and never an exponent.
-/

namespace ClipRender.Filter

def dropTrailing (c : Char) (cs : List Char) : List Char := (cs.reverse.dropWhile (· = c)).reverse

/-- A number rounded to zero has no sign. -/
def numberText (x : Binary64) : String :=
  let kept := String.ofList (dropTrailing '.' (dropTrailing '0' (Decimal.fixed 6 x).toList))
  if kept = "" ∨ kept = "-0" then "0" else kept

end ClipRender.Filter
