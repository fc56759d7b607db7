import ClipRender.Binary64.Arithmetic

set_option autoImplicit false

/-!
Decimal text with a fixed number of places: the exact value rounded to that place, a half to the
even neighbour, and never an exponent.
-/

namespace ClipRender.Decimal

def padded (width n : Nat) : String :=
  let digits := toString n
  String.ofList (List.replicate (width - digits.length) '0') ++ digits

/-- A whole number of `10 ^ -places` as digits with a point. -/
def withPoint (places n : Nat) : String :=
  if places = 0 then toString n
  else
    let one := Nat.pow 10 places
    toString (n / one) ++ "." ++ padded places (n % one)

/-- Text with `places` digits after the point; a negative number keeps its sign even where all
digits are zero. -/
def fixed (places : Nat) (x : Binary64) : String :=
  match x with
  | .nan => "nan"
  | .infinity negative => if negative then "-inf" else "inf"
  | .finite negative rank _ =>
    let magnitude :=
      Binary64.roundHalfEven (Binary64.unitsAt rank * Nat.pow 10 places) Binary64.unitsPerOne
    (if negative then "-" else "") ++ withPoint places magnitude

end ClipRender.Decimal
