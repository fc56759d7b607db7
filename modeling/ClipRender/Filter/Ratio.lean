import ClipRender.Failure
import ClipRender.Text.Blank
import ClipRender.Text.DecimalDigit

set_option autoImplicit false

/-!
Aspect ratios as text: two numbers with a colon between them and blanks anywhere around them. The
digits may be those of any script.
-/

namespace ClipRender.Filter

/-- Width to height. A ratio that is read from text has positive sides. -/
structure Ratio where
  width : Int
  height : Int
deriving DecidableEq

namespace Ratio

def digits? (cs : List Char) : Option (List Char × List Char) :=
  let digits := cs.takeWhile Text.isDecimalDigit
  if digits.isEmpty then none else some (digits, cs.dropWhile Text.isDecimalDigit)

def skipBlanks (cs : List Char) : List Char := cs.dropWhile Text.isBlank

def sides? (cs : List Char) : Option (List Char × List Char) := do
  let (width, rest) ← digits? (skipBlanks cs)
  match skipBlanks rest with
  | ':' :: rest =>
    let (height, rest) ← digits? (skipBlanks rest)
    if (skipBlanks rest).isEmpty then some (width, height) else none
  | _ => none

def digitLimit : Nat := 4300

def side (digits : List Char) : Except Failure Nat :=
  if digits.length > digitLimit then .error (.tooManyDigits digits.length)
  else .ok (Text.decimalValue digits)

/-- The ratio that a text names; none for a frame that is left as it is. -/
def read (given : Option String) : Except Failure (Option Ratio) :=
  let s := given.getD ""
  if s = "original" then .ok none
  else
    match sides? s.toList with
    | none => .error (.reported (.malformedRatio given))
    | some (width, height) => do
      let w ← side width
      let h ← side height
      if w = 0 ∨ h = 0 then .error (.reported (.ratioNotPositive s)) else .ok (some ⟨w, h⟩)

end Ratio

end ClipRender.Filter
