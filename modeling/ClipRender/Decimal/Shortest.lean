import ClipRender.Binary64.Basic

set_option autoImplicit false

/-!
The shortest decimal that reads back as a given number, and its text.
-/

namespace ClipRender.Decimal

structure Scientific where
  coefficient : Nat
  exponent : Int
deriving DecidableEq

/-- A magnitude and the bounds of all that round to it, in halves of a unit. -/
structure Target where
  value : Nat
  low : Nat
  high : Nat
  /-- Whether the bounds themselves round to the value. -/
  closed : Bool

/-- Halfway to both neighbours; a number of even rank takes both ties. -/
def Target.ofRank (rank : Nat) : Target where
  value := 2 * Binary64.unitsAt rank
  low := Binary64.unitsAt (rank - 1) + Binary64.unitsAt rank
  high := Binary64.unitsAt rank + Binary64.unitsAt (rank + 1)
  closed := rank % 2 = 0

def halvesPerOne : Nat := 2 * Binary64.unitsPerOne

/-- Where the leading digit stands: the least `p` with the value below `10 ^ p`. The factor makes
every magnitude a number of at least one digit. -/
def Target.magnitude (t : Target) : Int :=
  ((toString (t.value * Nat.pow 10 400 / halvesPerOne)).length : Int) - 400

/-- The point of the grid of `10 ^ exponent` that reads back and is nearest to the value. -/
def Target.onGrid? (t : Target) (exponent : Int) : Option Nat :=
  let scale := Nat.pow 10 (-exponent).toNat
  let step := Nat.pow 10 exponent.toNat * halvesPerOne
  let inside := fun c => if t.closed then t.low * scale ≤ c * step && c * step ≤ t.high * scale
    else t.low * scale < c * step && c * step < t.high * scale
  let below := t.value * scale / step
  let nearest := Binary64.roundHalfEven (t.value * scale) step
  if inside nearest then some nearest
  else if inside below then some below
  else if inside (below + 1) then some (below + 1)
  else none

/-- Seventeen digits always suffice. -/
def Target.shortest (t : Target) : Scientific :=
  let p := t.magnitude
  let digits := fun n : Nat => (t.onGrid? (p - 1 - n)).map fun c => Scientific.mk c (p - 1 - n)
  match (List.range 17).findSome? digits with
  | some s => s
  | none =>
    ⟨t.value * Nat.pow 10 (17 - p).toNat / (halvesPerOne * Nat.pow 10 (p - 17).toNat), p - 17⟩

structure Layout where
  /-- The least decimal exponent written without exponent notation. -/
  positionalFrom : Int
  /-- The least decimal exponent above those. -/
  positionalBelow : Int
  exponentMark : String
  exponentDigits : Nat
deriving DecidableEq

def significant (n : Nat) : List Char :=
  ((toString n).toList.reverse.dropWhile (· = '0')).reverse

def exponentText (l : Layout) (e : Int) : String :=
  let digits := toString e.natAbs
  l.exponentMark ++ (if e < 0 then "-" else "+")
    ++ String.ofList (List.replicate (l.exponentDigits - digits.length) '0') ++ digits

def Scientific.text (l : Layout) (s : Scientific) : String :=
  let e : Int := s.exponent + (toString s.coefficient).length - 1
  let digits := significant s.coefficient
  if l.positionalFrom ≤ e ∧ e < l.positionalBelow then
    if e < 0 then
      "0." ++ String.ofList (List.replicate (-e - 1).toNat '0' ++ digits)
    else
      let whole := digits.take (e.toNat + 1)
      let places := digits.drop (e.toNat + 1)
      String.ofList (whole ++ List.replicate (e.toNat + 1 - whole.length) '0') ++ "."
        ++ (if places.isEmpty then "0" else String.ofList places)
  else
    String.ofList (digits.take 1)
      ++ (if digits.length ≤ 1 then "" else "." ++ String.ofList (digits.drop 1))
      ++ exponentText l e

/-- Numbers in answers and messages: positional from 0.0001 to below 10 ^ 16, else with a signed
exponent of at least two digits. -/
def reportLayout : Layout := ⟨-4, 16, "e", 2⟩

end ClipRender.Decimal

/-- The shortest text that reads back as the number. -/
def ClipRender.Binary64.text : ClipRender.Binary64 → String
  | .nan => "nan"
  | .infinity negative => if negative then "-inf" else "inf"
  | .finite negative rank _ =>
    (if negative then "-" else "")
      ++ (if rank = 0 then "0.0"
          else
            (ClipRender.Decimal.Target.ofRank rank).shortest.text
              ClipRender.Decimal.reportLayout)
