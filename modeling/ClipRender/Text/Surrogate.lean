set_option autoImplicit false

/-!
Surrogates: numbers of sixteen bits that stand in pairs for one character each. One that stands
alone is no character.
-/

namespace ClipRender.Text.Surrogate

def isHigh (n : Nat) : Bool := 0xD800 ≤ n && n < 0xDC00

def isLow (n : Nat) : Bool := 0xDC00 ≤ n && n < 0xE000

def pair (high low : Nat) : Char := Char.ofNat (0x10000 + (high - 0xD800) * 0x400 + (low - 0xDC00))

/-- A character by its number; a surrogate on its own is replaced. -/
def alone (n : Nat) : Char := if isHigh n || isLow n then Char.ofNat 0xFFFD else Char.ofNat n

def join : List Nat → List Char
  | high :: low :: rest =>
    if isHigh high && isLow low then pair high low :: join rest
    else alone high :: join (low :: rest)
  | [n] => [alone n]
  | [] => []

end ClipRender.Text.Surrogate
