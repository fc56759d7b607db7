import ClipRender.Text.LetterCase
import ClipRender.Validation.Scalar

set_option autoImplicit false

/-!
Colours in hexadecimal: red, green and blue, and opacity if given, behind a hash sign.
-/

namespace ClipRender.Color

open Validation

def isHexDigit (c : Char) : Bool :=
  c.isDigit || ('A' ≤ c && c ≤ 'F') || ('a' ≤ c && c ≤ 'f')

def isDigits (cs : List Char) : Bool :=
  cs.all isHexDigit && (cs.length = 6 || cs.length = 8)

/-- The hash sign may be left out. -/
def isColor (cs : List Char) : Bool :=
  match cs with
  | '#' :: digits => isDigits digits
  | digits => isDigits digits

def shape : String := "^#?[0-9A-Fa-f]\x7b6\x7d([0-9A-Fa-f]\x7b2\x7d)?$"

def withHash (s : String) : String := if s.toList.head? = some '#' then s else "#" ++ s

def check (v : Json.Value) : Checked String :=
  ((text v).ensure (fun s => isColor s.toList) fun _ => .pattern shape).map withHash

def engineText (s : String) : String :=
  "0x" ++ Text.upper (String.ofList (s.toList.dropWhile (· = '#')))

end ClipRender.Color
