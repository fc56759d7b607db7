import ClipRender.Decimal.Literal

set_option autoImplicit false

/-!
Decimals in plain digits, without an exponent, and the one form that each of them has when nothing
is written that could be left out.
-/

namespace ClipRender.Decimal

structure Numeral where
  negative : Bool
  whole : List Char
  places : List Char
deriving DecidableEq

namespace Numeral

/-- There is no point where no digits are behind it. -/
def text (n : Numeral) : List Char :=
  (if n.negative then ['-'] else []) ++ n.whole
    ++ if n.places = [] then [] else '.' :: n.places

/-- Nothing but digits. Of several in front of the point the first is not a zero. -/
structure Plain (n : Numeral) : Prop where
  whole_ne_nil : n.whole ≠ []
  whole_digits : ∀ c ∈ n.whole, c.isDigit = true
  whole_head : n.whole.head? = some '0' → n.whole = ['0']
  places_digits : ∀ c ∈ n.places, c.isDigit = true

/-- No zero at the end of the places, and no sign at zero. -/
structure Canonical (n : Numeral) : Prop extends Plain n where
  places_last : n.places.getLast? ≠ some '0'
  zero_unsigned : n.whole = ['0'] → n.places = [] → n.negative = false

def literal (n : Numeral) : Literal :=
  ⟨n.negative, digitsValue (n.whole ++ n.places), -(n.places.length : Int)⟩

end Numeral

end ClipRender.Decimal
