import ClipRender.Text.Printable

set_option autoImplicit false

/-!
Text in quotes for messages. Single quotes enclose it unless it has one and no double quote; the
quote, the backslash and whatever does not print are escaped.
-/

namespace ClipRender.Text

def hexDigits (width n : Nat) : List Char :=
  let digits := (Nat.toDigits 16 n)
  List.replicate (width - digits.length) '0' ++ digits

/-- An escape by number, as short as its size allows. -/
def numberEscape (c : Char) : List Char :=
  let n := c.toNat
  if n < 0x100 then '\\' :: 'x' :: hexDigits 2 n
  else if n < 0x10000 then '\\' :: 'u' :: hexDigits 4 n
  else '\\' :: 'U' :: hexDigits 8 n

def quotedChar (quote c : Char) : List Char :=
  if c = quote ∨ c = '\\' then ['\\', c]
  else if c = '\n' then ['\\', 'n']
  else if c = '\r' then ['\\', 'r']
  else if c = '\t' then ['\\', 't']
  else if 0x20 ≤ c.toNat ∧ c.toNat < 0x7F then [c]
  else if isPrintable c then [c]
  else numberEscape c

def quoteFor (s : String) : Char :=
  if s.toList.contains '\'' && !s.toList.contains '"' then '"' else '\''

def quoted (s : String) : String :=
  String.ofList (quoteFor s :: s.toList.flatMap (quotedChar (quoteFor s)) ++ [quoteFor s])

end ClipRender.Text
