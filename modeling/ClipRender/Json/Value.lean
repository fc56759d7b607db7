import ClipRender.Binary64.Basic

set_option autoImplicit false

/-!
Untyped data as it arrives from a caller: whole numbers are kept apart from other numbers, and an
object holds each key once, in the order of first mention.
-/

namespace ClipRender.Json

inductive Value where
  | null
  | bool (b : Bool)
  | integer (n : Int)
  | number (x : Binary64)
  | string (s : String)
  | array (items : List Value)
  | object (fields : List (String × Value))

inductive Container where
  | array
  | object
deriving DecidableEq

def Container.name : Container → String
  | .array => "array"
  | .object => "object"

instance : Inhabited Value := ⟨.null⟩

abbrev Fields := List (String × Value)

/-- The value of a key set to `v`; a key that is already there keeps its place. -/
def Fields.put (fields : Fields) (key : String) (v : Value) : Fields :=
  if fields.any (·.1 = key) then fields.map fun f => if f.1 = key then (key, v) else f
  else fields ++ [(key, v)]

def Fields.get? (fields : Fields) (key : String) : Option Value := fields.lookup key

/-- Data that stands for nothing given: null, false, zero and whatever is empty. -/
def Value.isBlank : Value → Bool
  | .null => true
  | .bool b => !b
  | .integer n => n = 0
  | .number x => Binary64.eq x Binary64.zero
  | .string s => s.isEmpty
  | .array items => items.isEmpty
  | .object fields => fields.isEmpty

end ClipRender.Json
