import ClipRender.Edit.EditSpec
import ClipRender.Edit.Moment
import Mathlib.Data.List.Forall2

set_option autoImplicit false

/-!
What it takes for a check to let something through. Every check of a record, a field or a list is
taken apart into the checks of its parts.
-/

namespace ClipRender.Validation

namespace Checked

variable {α β : Type}

theorem map_eq_valid {f : α → β} {x : Checked α} {b : β} :
    f <$> x = .valid b ↔ ∃ a, x = .valid a ∧ f a = b := by
  change map f x = .valid b ↔ _
  cases x <;> simp [map]

theorem seq_eq_valid {f : Checked (α → β)} {x : Checked α} {b : β} :
    f <*> x = .valid b ↔ ∃ g a, f = .valid g ∧ x = .valid a ∧ g a = b := by
  change apply f x = .valid b ↔ _
  cases f with
  | valid g => cases x <;> simp [apply, map]
  | faulty first more => simp [apply]

theorem andThen_eq_valid {x : Checked α} {check : α → Checked β} {b : β} :
    x.andThen check = .valid b ↔ ∃ a, x = .valid a ∧ check a = .valid b := by
  cases x <;> simp [andThen]

theorem ensure_eq_valid {x : Checked α} {holds : α → Bool} {fault : α → Fault} {a : α} :
    x.ensure holds fault = .valid a ↔ x = .valid a ∧ holds a = true := by
  rw [ensure, andThen_eq_valid]
  constructor
  · rintro ⟨b, rfl, hb⟩
    by_cases h : holds b = true
    · obtain rfl : b = a := by simpa [h] using hb
      exact ⟨rfl, h⟩
    · simp [h, fail] at hb
  · rintro ⟨rfl, h⟩
    exact ⟨a, rfl, by simp [h]⟩

theorem inside_eq_valid {place : Place} {x : Checked α} {a : α} :
    x.inside place = .valid a ↔ x = .valid a := by
  cases x <;> simp [inside]

def value? : Checked α → Option α
  | .valid a => some a
  | .faulty _ _ => none

theorem eq_valid_of_value?_eq_some {x : Checked α} {a : α} (h : x.value? = some a) :
    x = .valid a := by
  cases x with
  | valid b => rw [Option.some.inj h]
  | faulty first more => contradiction

theorem each_eq_valid {check : β → Checked α} {n : Nat} {items : List β} {values : List α} :
    each check n items = .valid values
      ↔ List.Forall₂ (fun item a => check item = .valid a) items values := by
  induction items generalizing n values with
  | nil => simp [each, eq_comm]
  | cons item rest ih =>
    change (List.cons <$> inside (.index n) (check item)) <*> each check (n + 1) rest = _ ↔ _
    simp only [seq_eq_valid, map_eq_valid, inside_eq_valid, ih, List.forall₂_cons_left_iff]
    constructor
    · rintro ⟨_, more, ⟨first, hfirst, rfl⟩, hmore, rfl⟩
      exact ⟨first, more, hfirst, hmore, rfl⟩
    · rintro ⟨first, more, hfirst, hmore, rfl⟩
      exact ⟨_, more, ⟨first, hfirst, rfl⟩, hmore, rfl⟩

end Checked

variable {α : Type}

theorem fieldOr_eq_valid {name : FieldName} {absent : Checked α} {check : Json.Value → Checked α}
    {fields : Json.Fields} {a : α} :
    fieldOr name absent check fields = .valid a
      ↔ (name.find? fields = none ∧ absent = .valid a)
        ∨ ∃ key v, name.find? fields = some (key, v) ∧ check v = .valid a := by
  rw [fieldOr]
  cases hfind : name.find? fields with
  | none => simp
  | some given =>
    rw [Checked.inside_eq_valid]
    constructor
    · exact fun h => .inr ⟨given.1, given.2, rfl, h⟩
    · rintro (⟨hnone, _⟩ | ⟨key, v, hgiven, h⟩)
      · exact nomatch hnone
      · rw [Option.some.inj hgiven]
        exact h

theorem fieldOr_cases {name : FieldName} {absent : Checked α} {check : Json.Value → Checked α}
    {fields : Json.Fields} {a : α} (h : fieldOr name absent check fields = .valid a) :
    absent = .valid a ∨ ∃ v, check v = .valid a := by
  rcases fieldOr_eq_valid.mp h with ⟨_, habsent⟩ | ⟨_, v, _, hcheck⟩
  · exact .inl habsent
  · exact .inr ⟨v, hcheck⟩

theorem field_eq_valid {name : FieldName} {check : Json.Value → Checked α} {fields : Json.Fields}
    {a : α} :
    field name check fields = .valid a
      ↔ ∃ key v, name.find? fields = some (key, v) ∧ check v = .valid a := by
  rw [field, fieldOr_eq_valid]
  simp [Checked.inside, Checked.fail]

theorem record_eq_valid {origin : Origin} {model : String} {check : Json.Fields → Checked α}
    {v : Json.Value} {a : α} :
    record origin model check v = .valid a ↔ ∃ fields, v = .object fields ∧ check fields = .valid a := by
  cases v <;> simp [record, Checked.fail]

theorem record_andThen_eq_valid {origin : Origin} {model : String}
    {check : Json.Fields → Checked α} {guard : α → Checked α} {holds : α → Prop}
    (hguard : ∀ {x y}, guard x = .valid y ↔ x = y ∧ holds y) {v : Json.Value} {a : α} :
    record origin model (fun fields => (check fields).andThen guard) v = .valid a
      ↔ ∃ fields, v = .object fields ∧ check fields = .valid a ∧ holds a := by
  simp only [record_eq_valid, Checked.andThen_eq_valid, hguard]
  constructor
  · rintro ⟨fields, rfl, _, hfields, rfl, hholds⟩
    exact ⟨fields, rfl, hfields, hholds⟩
  · rintro ⟨fields, rfl, hfields, hholds⟩
    exact ⟨fields, rfl, a, hfields, rfl, hholds⟩

theorem list_eq_valid {check : Json.Value → Checked α} {v : Json.Value} {values : List α} :
    list check v = .valid values
      ↔ ∃ items, v = .array items ∧ List.Forall₂ (fun item a => check item = .valid a) items values := by
  cases v <;> simp [list, Checked.fail, Checked.each_eq_valid]

theorem optional_eq_some {check : Json.Value → Checked α} {v : Json.Value} {a : α} :
    optional check v = .valid (some a) ↔ v ≠ .null ∧ check v = .valid a := by
  rw [optional.eq_def]
  split
  · simp
  · next v hv =>
    refine Checked.map_eq_valid.trans ?_
    simpa using fun _ h => hv h

theorem text_eq_valid {v : Json.Value} {s : String} : text v = .valid s ↔ v = .string s := by
  cases v <;> simp [text, Checked.fail]

theorem boundedNumber_eq_valid {bounds : List Bound} {v : Json.Value} {x : Binary64} :
    boundedNumber bounds v = .valid x
      ↔ number v = .valid x ∧ x.isFinite = true ∧ ∀ b ∈ bounds, b.holds x = true := by
  have within_eq : ∀ y, within bounds y = .valid x ↔ y = x ∧ ∀ b ∈ bounds, b.holds y = true := by
    intro y
    rw [within]
    split
    · next broken hbroken =>
      have hmem := List.mem_of_find?_eq_some hbroken
      have hbreaks := List.find?_some hbroken
      constructor
      · exact fun h => nomatch h
      · rintro ⟨_, hall⟩
        rw [hall broken hmem] at hbreaks
        exact nomatch hbreaks
    · next hnone =>
      have hall : ∀ b ∈ bounds, b.holds y = true := by simpa using hnone
      simpa using fun _ => hall
  rw [boundedNumber, Checked.andThen_eq_valid]
  simp only [Checked.ensure_eq_valid, within_eq]
  constructor
  · rintro ⟨y, ⟨hnumber, hfinite⟩, rfl, hall⟩
    exact ⟨hnumber, hfinite, hall⟩
  · rintro ⟨hnumber, hfinite, hall⟩
    exact ⟨x, ⟨hnumber, hfinite⟩, rfl, hall⟩

end ClipRender.Validation
