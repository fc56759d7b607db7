import ClipRender.Binary64.Basic

set_option autoImplicit false

/-!
Decimal literals with a fraction and an exponent, and the numbers they stand for.
-/

namespace ClipRender.Decimal

def digitsValue (digits : List Char) : Nat :=
  digits.foldl (fun n c => 10 * n + (c.toNat - '0'.toNat)) 0

structure Literal where
  negative : Bool
  coefficient : Nat
  exponent : Int
deriving DecidableEq

/-- The nearest number. A literal whose leading digit stands far outside the range of the numbers
is infinite or zero without its power of ten being computed. -/
def Literal.toBinary64 (l : Literal) : Binary64 :=
  if l.coefficient = 0 then Binary64.signedZero l.negative
  else
    let leading := (toString l.coefficient).length + l.exponent
    if leading > 400 then .infinity l.negative
    else if leading < -400 then Binary64.signedZero l.negative
    else
      Binary64.ofUnits l.negative
        (l.coefficient * Nat.pow 10 l.exponent.toNat * Binary64.unitsPerOne)
        (Nat.pow 10 (-l.exponent).toNat)

def signed : List Char → Bool × List Char
  | '-' :: rest => (true, rest)
  | '+' :: rest => (false, rest)
  | rest => (false, rest)

def exponent? (cs : List Char) : Option Int :=
  let (negative, digits) := signed cs
  if digits ≠ [] ∧ digits.all Char.isDigit then
    some (if negative then -(digitsValue digits : Int) else digitsValue digits)
  else none

/-- A literal: sign, digits with at most one point among or beside them, and an exponent after
`e` or `E`. -/
def Literal.read? (cs : List Char) : Option Literal :=
  let (negative, body) := signed cs
  let whole := body.takeWhile Char.isDigit
  let afterWhole := body.dropWhile Char.isDigit
  let (places, rest) := match afterWhole with
    | '.' :: r => (r.takeWhile Char.isDigit, r.dropWhile Char.isDigit)
    | r => ([], r)
  let exponent : Option Int := match rest with
    | [] => some 0
    | c :: r => if c = 'e' ∨ c = 'E' then exponent? r else none
  if whole = [] ∧ places = [] then none
  else exponent.map fun e => ⟨negative, digitsValue (whole ++ places), e - places.length⟩

/-- The number a text stands for: a literal, or the word for infinity or a NaN in any case with an
optional sign. -/
def read? (cs : List Char) : Option Binary64 :=
  let (negative, body) := signed cs
  let word := String.ofList (body.map Char.toLower)
  if word = "inf" ∨ word = "infinity" then some (.infinity negative)
  else if word = "nan" then some .nan
  else (Literal.read? cs).map Literal.toBinary64

end ClipRender.Decimal
