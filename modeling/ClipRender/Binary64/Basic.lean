set_option autoImplicit false

/-!
Double-precision numbers as exact values. A finite number is a sign and its rank among the
non-negative numbers, so that order is order of ranks and the neighbour above is the next rank.
Every operation computes an exact quotient and rounds it once, to the nearest number and a tie to
the even rank.
-/

namespace ClipRender

/-- The ranks of a block, within which all steps are of one width. -/
def Binary64.blockSize : Nat := Nat.pow 2 52

/-- The rank one past the greatest finite number. -/
def Binary64.rankLimit : Nat := 2047 * blockSize

inductive Binary64 where
  | finite (negative : Bool) (rank : Nat) (inRange : rank < Binary64.rankLimit)
  | infinity (negative : Bool)
  | nan
deriving DecidableEq

namespace Binary64

/-- The least positive number is one unit, and each finite number is a whole number of units;
there are this many units in one. -/
def unitsPerOne : Nat := Nat.pow 2 1074

/-- The magnitude at a rank, in units. In the first two blocks the steps are single units; from
there on each block has steps twice as wide as the block before. -/
def unitsAt (rank : Nat) : Nat :=
  let block := rank / blockSize
  if block = 0 then rank else (blockSize + rank % blockSize) * Nat.pow 2 (block - 1)

def roundHalfEven (num den : Nat) : Nat :=
  if 2 * (num % den) < den ∨ (2 * (num % den) = den ∧ num / den % 2 = 0) then num / den
  else num / den + 1

/-- The rank nearest to `num / den` units, which may lie at or past the limit. A quotient rounded
up to the next power of two carries into the next block by the same sum. -/
def nearestRank (num den : Nat) : Nat :=
  let block := (num / den).log2 - 52
  block * blockSize + roundHalfEven num (den * Nat.pow 2 block)

def ofRank (negative : Bool) (rank : Nat) : Binary64 :=
  if h : rank < rankLimit then .finite negative rank h else .infinity negative

def ofUnits (negative : Bool) (num : Nat) (den : Nat) : Binary64 :=
  ofRank negative (nearestRank num den)

def signedZero (negative : Bool) : Binary64 := .finite negative 0 (by decide)

def zero : Binary64 := signedZero false

def ofNat (n : Nat) : Binary64 := ofUnits false (n * unitsPerOne) 1

def ofInt (n : Int) : Binary64 := ofUnits (n < 0) (n.natAbs * unitsPerOne) 1

def ofQuotient (a b : Int) : Binary64 :=
  ofUnits ((a < 0) != (b < 0)) (a.natAbs * unitsPerOne) b.natAbs

def one : Binary64 := ofNat 1

def isFinite : Binary64 → Bool
  | .finite .. => true
  | _ => false

/-- Position on the number line: both zeros stand at 0, the infinities one past the last rank. -/
def ordinal? : Binary64 → Option Int
  | .finite negative rank _ => some (if negative then -(rank : Int) else rank)
  | .infinity negative => some (if negative then -(rankLimit : Int) else rankLimit)
  | .nan => none

/-- Comparison by a test on positions; no test holds of a NaN. -/
def compare (test : Int → Int → Bool) (x y : Binary64) : Bool :=
  match x.ordinal?, y.ordinal? with
  | some a, some b => test a b
  | _, _ => false

def lt (x y : Binary64) : Bool := compare (fun a b => a < b) x y

def le (x y : Binary64) : Bool := compare (fun a b => a ≤ b) x y

/-- Equality of the numbers: the zeros are equal and a NaN equals nothing. -/
def eq (x y : Binary64) : Bool := compare (fun a b => a = b) x y

/-- The exact value in units; 0 where there is none. -/
def signedUnits : Binary64 → Int
  | .finite negative rank _ => if negative then -(unitsAt rank : Int) else unitsAt rank
  | _ => 0

end Binary64

end ClipRender
