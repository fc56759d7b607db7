import ClipRender.Filter.Reading

set_option autoImplicit false

/-!
The option's reader on one value. It takes the value off the front of a text and stops at the colon
that the next option stands behind.
-/

namespace ClipRender.Filter

/-- The characters of a class that no backslash stands before. A backslash at the very end, which
stands before nothing, is one of them. -/
def unescaped (special : Char → Bool) : List Char → List Char
  | [] => []
  | ['\\'] => ['\\']
  | '\\' :: _ :: rest => unescaped special rest
  | c :: rest => if special c then c :: unescaped special rest else unescaped special rest

structure Token where
  marks : List Mark
  rest : List Char
deriving DecidableEq

namespace Token

def push (m : Mark) (token : Token) : Token := { token with marks := m :: token.marks }

@[simp] theorem marks_push (m : Mark) (token : Token) : (token.push m).marks = m :: token.marks :=
  rfl

@[simp] theorem rest_push (m : Mark) (token : Token) : (token.push m).rest = token.rest := rfl

/-- Takes quoting away up to a bare colon, which is left; the flag tells whether a quote is open. -/
def take : Bool → List Char → Token
  | _, [] => ⟨[], []⟩
  | true, c :: rest => if c = '\'' then take false rest else (take true rest).push ⟨c, false⟩
  | false, '\\' :: c :: rest => (take false rest).push ⟨c, false⟩
  | false, c :: rest =>
    if c = ':' then ⟨[], c :: rest⟩
    else if c = '\'' then take true rest
    else (take false rest).push ⟨c, true⟩

def value (token : Token) : String := Argument.readValue token.marks

end Token

end ClipRender.Filter
