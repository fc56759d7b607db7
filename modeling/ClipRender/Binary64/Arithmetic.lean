import ClipRender.Binary64.Basic

set_option autoImplicit false

/-!
Arithmetic on double-precision numbers. Each result is the exact one rounded once; zeros keep the
sign that the operands give them.
-/

namespace ClipRender.Binary64

def neg : Binary64 → Binary64
  | .finite negative rank h => .finite (!negative) rank h
  | .infinity negative => .infinity (!negative)
  | .nan => .nan

def add : Binary64 → Binary64 → Binary64
  | .nan, _ => .nan
  | _, .nan => .nan
  | .infinity s, .infinity t => if s = t then .infinity s else .nan
  | .infinity s, .finite .. => .infinity s
  | .finite .., .infinity t => .infinity t
  | .finite s a ha, .finite t b hb =>
    let sum := signedUnits (.finite s a ha) + signedUnits (.finite t b hb)
    if sum = 0 then signedZero (s && t) else ofUnits (sum < 0) sum.natAbs 1

def sub (x y : Binary64) : Binary64 := add x (neg y)

def mul : Binary64 → Binary64 → Binary64
  | .nan, _ => .nan
  | _, .nan => .nan
  | .infinity s, .infinity t => .infinity (s != t)
  | .infinity s, .finite t b _ => if b = 0 then .nan else .infinity (s != t)
  | .finite s a _, .infinity t => if a = 0 then .nan else .infinity (s != t)
  | .finite s a _, .finite t b _ => ofUnits (s != t) (unitsAt a * unitsAt b) unitsPerOne

/-- A quotient by zero is infinite, or a NaN if both are zero. -/
def div : Binary64 → Binary64 → Binary64
  | .nan, _ => .nan
  | _, .nan => .nan
  | .infinity _, .infinity _ => .nan
  | .infinity s, .finite t _ _ => .infinity (s != t)
  | .finite s _ _, .infinity t => signedZero (s != t)
  | .finite s a _, .finite t b _ =>
    if b = 0 then if a = 0 then .nan else .infinity (s != t)
    else ofUnits (s != t) (unitsAt a * unitsPerOne) (unitsAt b)

instance : Add Binary64 := ⟨add⟩
instance : Sub Binary64 := ⟨sub⟩
instance : Mul Binary64 := ⟨mul⟩
instance : Div Binary64 := ⟨div⟩
instance : Neg Binary64 := ⟨neg⟩

def max (x y : Binary64) : Binary64 := if lt x y then y else x

def min (x y : Binary64) : Binary64 := if lt y x then y else x

inductive NoWhole where
  | infinity
  | nan
deriving DecidableEq

/-- The whole number chosen by `rule` from the magnitude, with the sign of the number. -/
def toWhole (rule : Nat → Nat → Nat) : Binary64 → Except NoWhole Int
  | .nan => .error .nan
  | .infinity _ => .error .infinity
  | .finite negative rank _ =>
    let magnitude : Int := rule (unitsAt rank) unitsPerOne
    .ok (if negative then -magnitude else magnitude)

def round : Binary64 → Except NoWhole Int := toWhole roundHalfEven

def truncate : Binary64 → Except NoWhole Int := toWhole (· / ·)

def toInt? (x : Binary64) : Option Int :=
  match x with
  | .finite _ rank _ =>
    if unitsAt rank % unitsPerOne = 0 then x.truncate.toOption else none
  | _ => none

/-- The magnitude in units of `10 ^ -places`, to the nearest whole number, a half to the even one;
none unless finite. -/
def roundedPlaces? (places : Nat) : Binary64 → Option Nat
  | .finite _ rank _ => some (roundHalfEven (unitsAt rank * Nat.pow 10 places) unitsPerOne)
  | _ => none

/-- Whether the number exceeds a whole number, compared exactly. -/
def exceeds (x : Binary64) (n : Int) : Bool :=
  match x with
  | .nan => false
  | .infinity negative => !negative
  | .finite .. => n * unitsPerOne < x.signedUnits

end ClipRender.Binary64
