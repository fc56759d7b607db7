import ClipRender.Text.Surrogate
import ClipRender.Text.Utf8

set_option autoImplicit false

/-!
JSON text in bytes. In which form its characters are encoded is told by a mark at the start or,
without one, by the zeros among the first four bytes, because the first two characters of a JSON
text are of seven bits each.
-/

namespace ClipRender.Json.Encoding

open Text Utf8

inductive Form where
  | utf8
  | utf16 (bigEndian : Bool)
  | utf32 (bigEndian : Bool)
deriving DecidableEq

/-- The marks, of which the first that fits counts. -/
def marks : List (Bytes × Form) :=
  [([0x00, 0x00, 0xFE, 0xFF], .utf32 true), ([0xFF, 0xFE, 0x00, 0x00], .utf32 false),
   ([0xFE, 0xFF], .utf16 true), ([0xFF, 0xFE], .utf16 false), ([0xEF, 0xBB, 0xBF], .utf8)]

def unmarked : Bytes → Form
  | 0 :: 0 :: _ :: _ :: _ => .utf32 true
  | 0 :: _ :: _ :: _ :: _ => .utf16 true
  | _ :: 0 :: 0 :: 0 :: _ => .utf32 false
  | _ :: 0 :: _ :: _ :: _ => .utf16 false
  | [0, _] => .utf16 true
  | [_, 0] => .utf16 false
  | _ => .utf8

def detect (bytes : Bytes) : Form × Bytes :=
  match marks.find? fun (mark, _) => mark.isPrefixOf bytes with
  | some (mark, form) => (form, bytes.drop mark.length)
  | none => (unmarked bytes, bytes)

def number (bigEndian : Bool) (bytes : Bytes) : Nat :=
  (if bigEndian then bytes else bytes.reverse).foldl (fun n b => 256 * n + b.toNat) 0

def pairs? (bigEndian : Bool) : Bytes → Option (List Nat)
  | a :: b :: rest => (pairs? bigEndian rest).map (number bigEndian [a, b] :: ·)
  | [] => some []
  | _ => none

def quads? (bigEndian : Bool) : Bytes → Option (List Nat)
  | a :: b :: c :: d :: rest => (quads? bigEndian rest).map (number bigEndian [a, b, c, d] :: ·)
  | [] => some []
  | _ => none

def lastNumber : Nat := 0x10FFFF

/-- The bytes with a replacement character for each surrogate that is encoded as if it were a
character. -/
def withoutSurrogates : Bytes → Bytes
  | a :: b :: c :: rest =>
    if a = 0xED ∧ 0xA0 ≤ b ∧ b ≤ 0xBF ∧ 0x80 ≤ c ∧ c ≤ 0xBF then
      0xEF :: 0xBF :: 0xBD :: withoutSurrogates rest
    else a :: withoutSurrogates (b :: c :: rest)
  | rest => rest

/-- The text, unless bytes of it belong to no character and no surrogate. -/
def text? (bytes : Bytes) : Option String :=
  match detect bytes with
  | (.utf8, bytes) => decode? (withoutSurrogates bytes)
  | (.utf16 bigEndian, bytes) =>
    (pairs? bigEndian bytes).map fun numbers => String.ofList (Surrogate.join numbers)
  | (.utf32 bigEndian, bytes) =>
    ((quads? bigEndian bytes).filter (·.all (· ≤ lastNumber))).map fun numbers =>
      String.ofList (numbers.map Surrogate.alone)

end ClipRender.Json.Encoding
