set_option autoImplicit false

/-!
Blank characters. Two classes are in use: what is cut from the ends of text and skipped between
tokens, and the narrower class that is cut from the ends of numerals.
-/

namespace ClipRender.Text

def isWhiteSpace (c : Char) : Bool :=
  let n := c.toNat
  (0x09 ≤ n && n ≤ 0x0D) || n = 0x20 || n = 0x85 || n = 0xA0 || n = 0x1680
    || (0x2000 ≤ n && n ≤ 0x200A) || n = 0x2028 || n = 0x2029 || n = 0x202F || n = 0x205F
    || n = 0x3000

/-- White space and the four information separators. -/
def isBlank (c : Char) : Bool := isWhiteSpace c || (0x1C ≤ c.toNat && c.toNat ≤ 0x1F)

def trim (drops : Char → Bool) (cs : List Char) : List Char :=
  ((cs.dropWhile drops).reverse.dropWhile drops).reverse

def strip (s : String) : String := String.ofList (trim isBlank s.toList)

def isBlankText (s : String) : Bool := s.toList.all isBlank

end ClipRender.Text
