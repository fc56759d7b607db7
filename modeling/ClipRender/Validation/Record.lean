import ClipRender.Json.Value
import ClipRender.Validation.Checked

set_option autoImplicit false

/-!
Records and lists out of untyped data. A field has a name for callers outside and one for callers
inside; the outer name counts if both are given, and an issue names the key that was used.
-/

namespace ClipRender.Validation

open Json (Value Fields)

structure FieldName where
  outer : String
  inner : String

def FieldName.word (name : String) : FieldName := ⟨name, name⟩

/-- The key under which a field is given, with its value. -/
def FieldName.find? (name : FieldName) (fields : Fields) : Option (String × Value) :=
  match fields.get? name.outer with
  | some v => some (name.outer, v)
  | none => (fields.get? name.inner).map (name.inner, ·)

variable {α : Type}

def fieldOr (name : FieldName) (absent : Checked α) (check : Value → Checked α) (fields : Fields) :
    Checked α :=
  match name.find? fields with
  | some (key, v) => (check v).inside (.key key)
  | none => absent

def field (name : FieldName) (check : Value → Checked α) (fields : Fields) : Checked α :=
  fieldOr name ((Checked.fail .missing).inside (.key name.outer)) check fields

def record (origin : Origin) (model : String) (check : Fields → Checked α) : Value → Checked α
  | .object fields => check fields
  | _ => .fail (.notRecord origin model)

def list (check : Value → Checked α) : Value → Checked (List α)
  | .array items => Checked.each check 0 items
  | _ => .fail .notList

end ClipRender.Validation
