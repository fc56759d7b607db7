set_option autoImplicit false

/-!
Characters as bytes. Decoding goes by well-formed sequences: the lead byte fixes the length and the
range of the second byte, and all later bytes lie in `0x80 .. 0xBF`.
-/

namespace ClipRender.Utf8

abbrev Bytes := List UInt8

def encode (s : String) : Bytes := s.toList.flatMap String.utf8EncodeChar

/-- What a lead byte asks for: its own bits, the number of bytes after it and the range of the
first of those. -/
structure Lead where
  bits : Nat
  more : Nat
  low : Nat
  high : Nat

def lead? (b : Nat) : Option Lead :=
  if b < 0x80 then some ⟨b, 0, 0x80, 0xBF⟩
  else if b < 0xC2 then none
  else if b < 0xE0 then some ⟨b - 0xC0, 1, 0x80, 0xBF⟩
  else if b = 0xE0 then some ⟨0, 2, 0xA0, 0xBF⟩
  else if b = 0xED then some ⟨0xD, 2, 0x80, 0x9F⟩
  else if b < 0xF0 then some ⟨b - 0xE0, 2, 0x80, 0xBF⟩
  else if b = 0xF0 then some ⟨0, 3, 0x90, 0xBF⟩
  else if b < 0xF4 then some ⟨b - 0xF0, 3, 0x80, 0xBF⟩
  else if b = 0xF4 then some ⟨4, 3, 0x80, 0x8F⟩
  else none

/-- The bytes of the sequence that fit, at most `more` of them, with the bits so far. -/
def follow (bits more low high : Nat) : Bytes → Nat × Nat × Nat
  | [] => (bits, more, 0)
  | b :: rest =>
    if more = 0 then (bits, 0, 0)
    else if low ≤ b.toNat ∧ b.toNat ≤ high then
      let (bits', missing, taken) := follow (64 * bits + (b.toNat - 0x80)) (more - 1) 0x80 0xBF rest
      (bits', missing, taken + 1)
    else (bits, more, 0)

/-- The character at the head and the number of bytes after the first that belong to it; no
character where the bytes are the longest start of a sequence that breaks off. -/
def next (b : UInt8) (rest : Bytes) : Option Char × Nat :=
  match lead? b.toNat with
  | none => (none, 0)
  | some lead =>
    let (bits, missing, taken) := follow lead.bits lead.more lead.low lead.high rest
    (if missing = 0 then some (Char.ofNat bits) else none, taken)

def characters : Bytes → List (Option Char)
  | [] => []
  | b :: rest => (next b rest).1 :: characters (rest.drop (next b rest).2)
termination_by bytes => bytes.length
decreasing_by simp only [List.length_drop, List.length_cons]; omega

def decodeReplacing (bytes : Bytes) : String :=
  String.ofList ((characters bytes).map fun c => c.getD (Char.ofNat 0xFFFD))

def decode? (bytes : Bytes) : Option String :=
  ((characters bytes).mapM id).map String.ofList

/-- Each byte as the character of the same number. -/
def latin1 (bytes : Bytes) : String := String.ofList (bytes.map fun b => Char.ofNat b.toNat)

end ClipRender.Utf8
