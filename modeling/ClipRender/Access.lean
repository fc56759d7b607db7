import ClipRender.Text.Utf8

set_option autoImplicit false

/-!
The key that guards starting and cancelling renders.
-/

namespace ClipRender.Access

/-- Whether the key handed in is the expected one, byte by byte. None, or an empty one, never is. -/
def keyMatches (provided : Option String) (expected : String) : Bool :=
  match provided with
  | some key => !key.isEmpty && Utf8.encode key == Utf8.encode expected
  | none => false

end ClipRender.Access
