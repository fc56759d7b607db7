import ClipRender.Decimal.Literal

set_option autoImplicit false

/-!
How the engine reads a time of the form `HH:MM:SS.mmm`: as a whole number of milliseconds. Each
field is in its range, and only the hours may have more than their two digits.
-/

namespace ClipRender.Timestamp

def field? (width limit : Nat) (cs : List Char) : Option Nat :=
  let n := Decimal.digitsValue cs
  if cs.length = width ∧ cs.all Char.isDigit ∧ n < limit then some n else none

/-- Hours of more than two digits have no zero in front. -/
def hours? (cs : List Char) : Option Nat :=
  if cs.all Char.isDigit ∧ (cs.length = 2 ∨ (2 < cs.length ∧ cs.head? ≠ some '0')) then
    some (Decimal.digitsValue cs)
  else none

def seconds? (cs : List Char) : Option Nat :=
  match cs.splitOn '.' with
  | [whole, thousandths] => do
    let s ← field? 2 60 whole
    let ms ← field? 3 1000 thousandths
    return s * 1000 + ms
  | _ => none

def read? (text : String) : Option Nat :=
  match text.toList.splitOn ':' with
  | [hours, minutes, seconds] => do
    let h ← hours? hours
    let m ← field? 2 60 minutes
    let ms ← seconds? seconds
    return (h * 60 + m) * 60000 + ms
  | _ => none

end ClipRender.Timestamp
