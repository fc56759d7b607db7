import ClipRender.ExportError
import ClipRender.Proofs.WellFormed

set_option autoImplicit false

/-!
Reading edit data and writing it back. Whatever is given is either turned down with a text that
says why, or read as something well-formed; and all that is well-formed comes back unchanged from
what is written of it, under either spelling of every key.
-/

namespace ClipRender

open Validation

def Json.Value.fields : Json.Value → Json.Fields
  | .object fields => fields
  | _ => []

section Spellings

/-- The spelling inside the program of a key as callers write it. -/
def snakeCase (key : String) : String :=
  String.ofList (key.toList.flatMap fun c => if c.isUpper then ['_', c.toLower] else [c])

def respelledFields (chosen : String → Bool) (fields : Json.Fields) : Json.Fields :=
  fields.map fun f => (if chosen f.1 then snakeCase f.1 else f.1, f.2)

def respelled (chosen : String → Bool) : Json.Value → Json.Value
  | .object fields => .object (respelledFields chosen fields)
  | v => v

/-- A record in which the records of a list, each with its own choice, have keys in the other
spelling. -/
def respelledInside (inside : Nat → String → Bool) : Json.Value → Json.Value
  | .object fields =>
    .object (fields.map fun f =>
      (f.1, match f.2 with
        | .array items => .array (items.mapIdx fun n item => respelled (inside n) item)
        | v => v))
  | v => v

/-- No spelling of the one key is one of the other. -/
def KeysApart (k l : String) : Prop :=
  k ≠ l ∧ k ≠ snakeCase l ∧ snakeCase k ≠ l ∧ snakeCase k ≠ snakeCase l

instance : DecidableRel KeysApart := fun k l => by
  unfold KeysApart
  infer_instance

theorem KeysApart.symm {k l : String} (h : KeysApart k l) : KeysApart l k :=
  ⟨h.1.symm, h.2.2.1.symm, h.2.1.symm, h.2.2.2.symm⟩

theorem mem_of_get? {k : String} {fields : Json.Fields} {v : Json.Value}
    (h : fields.get? k = some v) : (k, v) ∈ fields := by
  obtain ⟨before, behind, rfl, -⟩ := List.lookup_eq_some_iff.mp h
  simp

theorem get?_ne_none {k : String} {fields : Json.Fields} {v : Json.Value}
    (h : (k, v) ∈ fields) : fields.get? k ≠ none := by
  intro hnone
  have hne := List.lookup_eq_none_iff.mp hnone (k, v) h
  simp at hne

variable {fields : Json.Fields} {chosen : String → Bool}
  (hkeys : (fields.map Prod.fst).Pairwise KeysApart)

include hkeys

theorem eq_of_not_keysApart {f g : String × Json.Value} (hf : f ∈ fields) (hg : g ∈ fields)
    (hmeet : ¬KeysApart f.1 g.1) : f.2 = g.2 := by
  let Agree : String × Json.Value → String × Json.Value → Prop :=
    fun f g => ¬KeysApart f.1 g.1 → f.2 = g.2
  have symmetric : Std.Symm Agree := ⟨fun f g h hmeet => (h fun hap => hmeet hap.symm).symm⟩
  have pairwise : fields.Pairwise Agree :=
    (List.pairwise_map.mp hkeys).imp fun hap hmeet => absurd hap hmeet
  exact pairwise.forall_of_forall (fun _ _ _ => rfl) hf hg hmeet

variable {name : FieldName} (hinner : snakeCase name.outer = name.inner) {v : Json.Value}
  (hmem : (name.outer, v) ∈ fields)

include hinner hmem

/-- A field's value is found wherever it stands and however its key is spelled. -/
theorem find?_respelled :
    ∃ used, name.find? (respelledFields chosen fields) = some (used, v) := by
  have only : ∀ {key w}, key = name.outer ∨ key = name.inner →
      (respelledFields chosen fields).get? key = some w → w = v := by
    intro key w hkey hget
    obtain ⟨f, hf, hfw⟩ := List.mem_map.mp (mem_of_get? hget)
    obtain ⟨hspelled, rfl⟩ := Prod.mk.inj hfw
    refine eq_of_not_keysApart hkeys hf hmem fun hap => ?_
    rw [← hspelled, ← hinner] at hkey
    split at hkey
    · exact hkey.elim hap.2.2.1 hap.2.2.2
    · exact hkey.elim hap.1 hap.2.1
  have there : (if chosen name.outer then name.inner else name.outer, v)
      ∈ respelledFields chosen fields := by
    rw [← hinner]
    exact List.mem_map.mpr ⟨_, hmem, rfl⟩
  rw [FieldName.find?]
  cases houter : (respelledFields chosen fields).get? name.outer with
  | some w => exact ⟨name.outer, by rw [only (.inl rfl) houter]⟩
  | none =>
    cases hget : (respelledFields chosen fields).get? name.inner with
    | some w => exact ⟨name.inner, by rw [only (.inr rfl) hget]; rfl⟩
    | none =>
      split at there
      · exact absurd hget (get?_ne_none there)
      · exact absurd houter (get?_ne_none there)

theorem fieldOr_respelled {α : Type} {absent : Checked α} {check : Json.Value → Checked α} {a : α}
    (hcheck : check v = .valid a) :
    fieldOr name absent check (respelledFields chosen fields) = .valid a := by
  obtain ⟨used, hfind⟩ := find?_respelled hkeys hinner hmem
  exact fieldOr_eq_valid.mpr (.inr ⟨used, v, hfind, hcheck⟩)

theorem field_respelled {α : Type} {check : Json.Value → Checked α} {a : α}
    (hcheck : check v = .valid a) :
    field name check (respelledFields chosen fields) = .valid a :=
  fieldOr_respelled hkeys hinner hmem hcheck

end Spellings

section Written

theorem nonEmptyText_string {s : String} (h : s ≠ "") : nonEmptyText (.string s) = .valid s :=
  Checked.ensure_eq_valid.mpr ⟨rfl, by simpa using h⟩

theorem TextOverlay.checkText_string {s : String} (h : ∃ c ∈ s.toList, Text.isBlank c = false) :
    checkText (.string s) = .valid s := by
  refine Checked.ensure_eq_valid.mpr ⟨rfl, ?_⟩
  rw [not_isBlankText_iff.mpr h]
  rfl

theorem integerAbove_integer {limit n : Int} (h : limit < n) :
    integerAbove limit (.integer n) = .valid n :=
  Checked.ensure_eq_valid.mpr ⟨rfl, decide_eq_true h⟩

theorem Color.check_string {color : String} {digits : List Char}
    (hcolor : color.toList = '#' :: digits) (hdigits : isDigits digits = true) :
    Color.check (.string color) = .valid color := by
  refine Checked.map_eq_valid.mpr ⟨color, Checked.ensure_eq_valid.mpr ⟨rfl, ?_⟩, ?_⟩
  · rw [hcolor]
    exact hdigits
  · simp [withHash, hcolor]

theorem AspectRatio.check_name (ratio : AspectRatio) :
    AspectRatio.check (.string ratio.name) = .valid ratio := by
  cases ratio <;> rfl

variable {bounds : List Bound} (hbounds : ∀ b ∈ bounds, b.limit.natAbs ≤ 2 ^ 53)

include hbounds

theorem boundedNumber_number {x : Binary64} (h : Fits bounds x) :
    boundedNumber bounds (.number x) = .valid x :=
  (boundedNumber_iff hbounds).mpr ⟨rfl, h⟩

theorem optional_optionalNumber {x : Option Binary64} (h : ∀ y ∈ x, Fits bounds y) :
    optional (boundedNumber bounds) (TextOverlay.optionalNumber x) = .valid x := by
  cases x with
  | none => rfl
  | some y =>
    exact optional_eq_some.mpr ⟨nofun, boundedNumber_number hbounds (h y rfl)⟩

end Written

variable {origin : Origin} (chosen : String → Bool)

/-- Whatever is kept passes its own check, whichever way its keys are spelled. -/
theorem TextOverlay.check_respelled {overlay : TextOverlay} (h : overlay.WellFormed) :
    TextOverlay.check origin (respelled chosen overlay.toJson) = .valid overlay := by
  refine check_eq_valid.mpr ⟨_, rfl, checkFields_eq_valid.mpr ?_, ?_⟩
  · have hkeys : (overlay.toJson.fields.map Prod.fst).Pairwise KeysApart := by
      change List.Pairwise KeysApart
        ["id", "text", "x", "y", "fontSize", "color", "startSec", "endSec", "bold"]
      decide
    obtain ⟨digits, hcolor, hdigits⟩ := h.color
    have hshare : ∀ {x : Option Binary64}, (∀ y ∈ x, y.Within 0 1) →
        share (optionalNumber x) = .valid x := by
      intro x hx
      exact optional_optionalNumber (by decide) fun y hy =>
        fits_within.mpr (by exact_mod_cast hx y hy)
    have hinstant : ∀ {x : Option Binary64}, (∀ y ∈ x, y.isFinite = true ∧ 0 ≤ y.value) →
        instant (optionalNumber x) = .valid x := by
      intro x hx
      exact optional_optionalNumber (by decide) fun y hy =>
        fits_atLeast.mpr (by exact_mod_cast hx y hy)
    refine ⟨field_respelled hkeys ?_ ?_ (nonEmptyText_string h.id),
      field_respelled hkeys ?_ ?_ (checkText_string h.text),
      fieldOr_respelled hkeys ?_ ?_ (hshare h.x),
      fieldOr_respelled hkeys ?_ ?_ (hshare h.y),
      fieldOr_respelled hkeys ?_ ?_ (integerAbove_integer h.fontSize),
      fieldOr_respelled hkeys ?_ ?_ (Color.check_string hcolor (Color.isDigits_iff.mpr hdigits)),
      fieldOr_respelled hkeys ?_ ?_ (hinstant h.startSec),
      fieldOr_respelled hkeys ?_ ?_ (hinstant h.endSec),
      fieldOr_respelled hkeys ?_ ?_ (v := .bool overlay.bold) rfl⟩
    -- The two spellings of each field, and what stands under it in what was written.
    all_goals first | decide | simp [FieldName.word, toJson, Json.Value.fields]
  · intro start hs finish he
    rw [← Bool.not_eq_true, Binary64.le_iff (h.endSec finish he).1 (h.startSec start hs).1, not_le]
    exact h.window start hs finish he

theorem TextOverlay.list_respelled (inside : Nat → String → Bool) {overlays : List TextOverlay}
    (h : ∀ overlay ∈ overlays, overlay.WellFormed) :
    list (TextOverlay.check origin)
        (.array ((overlays.map toJson).mapIdx fun n item => respelled (inside n) item))
      = .valid overlays := by
  refine list_eq_valid.mpr ⟨_, rfl, List.forall₂_iff_get.mpr ⟨by simp, fun n _ hn => ?_⟩⟩
  simpa using check_respelled (inside n) (h _ (List.get_mem overlays ⟨n, hn⟩))

theorem EditSpec.check_respelled (inside : Nat → String → Bool) {spec : EditSpec}
    (h : spec.WellFormed) :
    EditSpec.check origin (respelled chosen (respelledInside inside spec.toJson))
      = .valid spec := by
  refine check_eq_valid.mpr ⟨_, rfl, checkFields_eq_valid.mpr ?_, h.distinct⟩
  have hkeys : ((respelledInside inside spec.toJson).fields.map Prod.fst).Pairwise KeysApart := by
    change List.Pairwise KeysApart
      ["aspectRatio", "brightness", "contrast", "saturation", "speed", "trimStart", "trimEnd",
        "textOverlays", "cropX", "cropY", "cropW", "cropH"]
    decide
  have hadjustment : ∀ {x : Binary64}, x.Within (-1) 1 → adjustment (.number x) = .valid x := by
    intro x hx
    exact boundedNumber_number (by decide) (fits_within.mpr (by exact_mod_cast hx))
  have hposition : ∀ {x : Binary64}, x.Within 0 1 → position (.number x) = .valid x := by
    intro x hx
    exact boundedNumber_number (by decide) (fits_within.mpr (by exact_mod_cast hx))
  have hextent : ∀ {x : Binary64}, x.Within 0 1 ∧ 0 < x.value → extent (.number x) = .valid x := by
    intro x hx
    exact boundedNumber_number (by decide) (fits_extent.mpr hx)
  have hspeed : boundedNumber [.above 0] (.number spec.speed) = .valid spec.speed :=
    boundedNumber_number (by decide) (fits_above.mpr (by exact_mod_cast h.speed))
  have hstart : boundedNumber [.atLeast 0] (.number spec.trimStart) = .valid spec.trimStart :=
    boundedNumber_number (by decide) (fits_atLeast.mpr (by exact_mod_cast h.trimStart))
  have hend : boundedNumber [.atMost 0] (.number spec.trimEnd) = .valid spec.trimEnd :=
    boundedNumber_number (by decide) (fits_atMost.mpr (by exact_mod_cast h.trimEnd))
  refine ⟨fieldOr_respelled hkeys ?_ ?_ (AspectRatio.check_name spec.aspectRatio),
    fieldOr_respelled hkeys ?_ ?_ (hadjustment h.brightness),
    fieldOr_respelled hkeys ?_ ?_ (hadjustment h.contrast),
    fieldOr_respelled hkeys ?_ ?_ (hadjustment h.saturation),
    fieldOr_respelled hkeys ?_ ?_ hspeed,
    fieldOr_respelled hkeys ?_ ?_ hstart,
    fieldOr_respelled hkeys ?_ ?_ hend,
    fieldOr_respelled hkeys ?_ ?_ (TextOverlay.list_respelled inside h.overlays),
    fieldOr_respelled hkeys ?_ ?_ (hposition h.cropX),
    fieldOr_respelled hkeys ?_ ?_ (hposition h.cropY),
    fieldOr_respelled hkeys ?_ ?_ (hextent h.cropW),
    fieldOr_respelled hkeys ?_ ?_ (hextent h.cropH)⟩
  all_goals first | decide | simp [FieldName.word, toJson, Json.Value.fields, respelledInside]

theorem Moment.check_respelled {moment : Moment} (h : moment.WellFormed) :
    Moment.check origin (respelled chosen moment.toJson) = .valid moment := by
  refine check_eq_valid.mpr ⟨_, rfl, checkFields_eq_valid.mpr ?_, ?_⟩
  · have hkeys : (moment.toJson.fields.map Prod.fst).Pairwise KeysApart := by
      change List.Pairwise KeysApart ["startTime", "endTime"]
      decide
    have hpositive : 0 < moment.endTime.value := h.startTime.2.trans_lt h.order
    have hstart : boundedNumber [.atLeast 0] (.number moment.startTime) = .valid moment.startTime :=
      boundedNumber_number (by decide) (fits_atLeast.mpr (by exact_mod_cast h.startTime))
    have hend : boundedNumber [.above 0] (.number moment.endTime) = .valid moment.endTime :=
      boundedNumber_number (by decide)
        (fits_above.mpr ⟨h.endTime, by exact_mod_cast hpositive⟩)
    refine ⟨field_respelled hkeys ?_ ?_ hstart, field_respelled hkeys ?_ ?_ hend⟩
    all_goals first | decide | simp [toJson, Json.Value.fields]
  · rw [← Bool.not_eq_true, Binary64.le_iff h.endTime h.startTime.1, not_le]
    exact h.order

theorem respelled_none (v : Json.Value) : respelled (fun _ => false) v = v := by
  cases v <;> simp [respelled, respelledFields]

theorem EditSpec.respelledInside_none (spec : EditSpec) :
    respelledInside (fun _ _ => false) spec.toJson = spec.toJson := by
  simp [respelledInside, toJson, respelled_none, List.mapIdx_eq_zipIdx_map]

/-- What was read once is read again from what is written of it, however its keys are spelled. -/
theorem ofData_written :
    (∀ (data : Json.Value) (spec : EditSpec), EditSpec.ofData data = .valid spec →
      EditSpec.ofData spec.toJson = .valid spec ∧
      ∀ chosen inside,
        EditSpec.ofData (respelled chosen (respelledInside inside spec.toJson)) = .valid spec) ∧
    ∀ (data : Json.Value) (moment : Moment), Moment.ofData data = .valid moment →
      Moment.ofData moment.toJson = .valid moment ∧
      ∀ chosen, Moment.ofData (respelled chosen moment.toJson) = .valid moment := by
  constructor
  · intro data spec h
    have again : ∀ chosen inside,
        EditSpec.ofData (respelled chosen (respelledInside inside spec.toJson)) = .valid spec :=
      fun chosen inside => EditSpec.check_respelled chosen inside (EditSpec.wellFormed h)
    have plain := again (fun _ => false) (fun _ _ => false)
    rw [respelled_none, EditSpec.respelledInside_none] at plain
    exact ⟨plain, again⟩
  · intro data moment h
    have again : ∀ chosen, Moment.ofData (respelled chosen moment.toJson) = .valid moment :=
      fun chosen => Moment.check_respelled chosen (Moment.wellFormed h)
    have plain := again (fun _ => false)
    rw [respelled_none] at plain
    exact ⟨plain, again⟩

/-- Edits with numerals, words and flags for numbers and flags, a colour without its hash sign and
keys of both spellings. -/
def looseEdits : Json.Value :=
  .object [("aspect_ratio", .string "1:1"), ("trimStart", .bool true), ("speed", .string " 2 "),
    ("textOverlays", .array [.object [("id", .string "a"), ("text", .string " b"),
      ("font_size", .string "024"), ("color", .string "00ff00"), ("end_sec", .integer 3),
      ("bold", .string "yes")]])]

def looseMoment : Json.Value := .object [("start_time", .string "1"), ("endTime", .integer 2)]

theorem ofData_written_loose :
    ∃ spec moment, EditSpec.ofData looseEdits = .valid spec ∧
      EditSpec.ofData spec.toJson = .valid spec ∧
      Moment.ofData looseMoment = .valid moment ∧ Moment.ofData moment.toJson = .valid moment := by
  have hspec : (EditSpec.ofData looseEdits).value?.isSome = true := by decide +kernel
  have hmoment : (Moment.ofData looseMoment).value?.isSome = true := by decide +kernel
  obtain ⟨spec, hspec⟩ := Option.isSome_iff_exists.mp hspec
  obtain ⟨moment, hmoment⟩ := Option.isSome_iff_exists.mp hmoment
  have hspec := Checked.eq_valid_of_value?_eq_some hspec
  have hmoment := Checked.eq_valid_of_value?_eq_some hmoment
  exact ⟨spec, moment, hspec, (ofData_written.1 looseEdits spec hspec).1, hmoment,
    (ofData_written.2 looseMoment moment hmoment).1⟩

section Findings

theorem append_ne_empty {s : String} (h : s ≠ "") (t : String) : s ++ t ≠ "" :=
  fun hempty => h (String.append_eq_empty_iff.mp hempty).1

theorem orderText_ne_empty (finishName startName : String) (finish start : Binary64) :
    orderText finishName startName finish start ≠ "" := by
  unfold orderText
  iterate 8 refine append_ne_empty ?_ _
  decide

theorem Bound.message_ne_empty (b : Bound) : b.message ≠ "" := by
  cases b <;> exact append_ne_empty (by decide) _

theorem Fault.message_ne_empty (fault : Fault) : fault.message ≠ "" := by
  cases fault with
  | notRecord origin model =>
    cases origin with
    | program => exact append_ne_empty (by decide) _
    | body =>
      change (Fault.notRecord .body "").message ≠ ""
      decide
  | notChoice choices => exact append_ne_empty (by decide) _
  | pattern shape => exact append_ne_empty (append_ne_empty (by decide) _) _
  | bound broken => exact Bound.message_ne_empty broken
  | windowOrder finish start => exact orderText_ne_empty _ _ finish start
  | repeatedOverlay id => exact append_ne_empty (by decide) _
  | momentOrder finish start => exact orderText_ne_empty _ _ finish start
  | _ => decide

theorem findingText_ne_empty (location : List Place) {message : String} (h : message ≠ "") :
    findingText location message ≠ "" := by
  simp only [findingText]
  split
  · exact h
  · exact fun hempty => h (String.append_eq_empty_iff.mp hempty).2

theorem issuesText_ne_empty (first : Issue) (more : List Issue) :
    issuesText (first :: more) ≠ "" := by
  have hfirst : first.text ≠ "" :=
    findingText_ne_empty first.location (Fault.message_ne_empty first.fault)
  rw [issuesText, List.map_cons]
  cases more with
  | nil => simpa using hfirst
  | cons second rest =>
    rw [List.map_cons, String.intercalate_cons_cons]
    exact append_ne_empty (append_ne_empty hfirst _) _

end Findings

section Given

/-- The overlays that edit data holds, as they are given. -/
def givenOverlays (data : Json.Value) : List Json.Value :=
  match (FieldName.mk "textOverlays" "text_overlays").find? data.fields with
  | some (_, .array items) => items
  | _ => []

theorem find?_word (name : String) (fields : Json.Fields) :
    (FieldName.word name).find? fields = (fields.get? name).map (name, ·) := by
  rw [FieldName.find?, FieldName.word]
  cases fields.get? name <;> rfl

variable {origin : Origin}

theorem TextOverlay.text_as_given {item : Json.Value} {overlay : TextOverlay}
    (h : TextOverlay.check origin item = .valid overlay) :
    item.fields.get? "text" = some (.string overlay.text) := by
  obtain ⟨fields, rfl, hfields, -⟩ := check_eq_valid.mp h
  obtain ⟨key, v, hfind, hcheck⟩ := field_eq_valid.mp (checkFields_eq_valid.mp hfields).2.1
  obtain rfl := text_eq_valid.mp (Checked.ensure_eq_valid.mp hcheck).1
  rw [find?_word] at hfind
  obtain ⟨v, hget, hv⟩ := Option.map_eq_some_iff.mp hfind
  rw [← (Prod.mk.inj hv).2]
  exact hget

theorem EditSpec.texts_as_given {data : Json.Value} {spec : EditSpec}
    (h : EditSpec.check origin data = .valid spec) :
    List.Forall₂ (fun item overlay => item.fields.get? "text" = some (.string overlay.text))
      (givenOverlays data) spec.textOverlays := by
  obtain ⟨fields, rfl, hfields, -⟩ := check_eq_valid.mp h
  obtain ⟨-, -, -, -, -, -, -, htexts, -⟩ := checkFields_eq_valid.mp hfields
  rw [givenOverlays, Json.Value.fields]
  rcases fieldOr_eq_valid.mp htexts with ⟨hnone, habsent⟩ | ⟨key, v, hfind, hcheck⟩
  · rw [hnone, ← Checked.valid.inj habsent]
    exact .nil
  · obtain ⟨items, rfl, hitems⟩ := list_eq_valid.mp hcheck
    rw [hfind]
    exact hitems.imp fun item overlay => TextOverlay.text_as_given

theorem givenOverlays_ofData (data : Json.Value) :
    givenOverlays (if data.isBlank then .object [] else data) = givenOverlays data := by
  have hfields : (if data.isBlank then .object [] else data).fields = data.fields := by
    split
    · next hblank =>
      cases data with
      | object fields => rw [List.isEmpty_iff.mp hblank]
      | _ => rfl
    · rfl
  rw [givenOverlays, hfields, givenOverlays]

end Given

/-- Either what was read has the property, or the caller gets an error of the one kind, with a
text. -/
def Validation.Checked.Vouches {α : Type} (holds : α → Prop) : Checked α → Prop
  | .valid a => holds a
  | .faulty first more =>
    (ExportError.invalidData (first :: more)).kind = .invalidEditSpec ∧
      (ExportError.invalidData (first :: more)).detail ≠ ""

theorem Validation.Checked.vouches {α : Type} {holds : α → Prop} {x : Checked α}
    (h : ∀ a, x = .valid a → holds a) : x.Vouches holds := by
  cases x with
  | valid a => exact h a rfl
  | faulty first more => exact ⟨rfl, issuesText_ne_empty first more⟩

/-- All that data is read as is well-formed, and all that is well-formed is read from some data. -/
theorem ofData_sound :
    (∀ data, (EditSpec.ofData data).Vouches fun spec => spec.WellFormed ∧
      List.Forall₂ (fun item overlay => item.fields.get? "text" = some (.string overlay.text))
        (givenOverlays data) spec.textOverlays) ∧
    (∀ data, (Moment.ofData data).Vouches Moment.WellFormed) ∧
    (∀ spec, (∃ data, EditSpec.ofData data = .valid spec) ↔ spec.WellFormed) ∧
    ∀ moment, (∃ data, Moment.ofData data = .valid moment) ↔ moment.WellFormed := by
  refine ⟨fun data => Checked.vouches fun spec h => ⟨EditSpec.wellFormed h, ?_⟩,
    fun data => Checked.vouches fun moment h => Moment.wellFormed h, fun spec => ⟨?_, fun h => ?_⟩,
    fun moment => ⟨?_, fun h => ?_⟩⟩
  · rw [← givenOverlays_ofData]
    exact EditSpec.texts_as_given h
  · rintro ⟨data, h⟩
    exact EditSpec.wellFormed h
  · exact ⟨respelled (fun _ => false) (respelledInside (fun _ _ => false) spec.toJson),
      EditSpec.check_respelled (fun _ => false) (fun _ _ => false) h⟩
  · rintro ⟨data, h⟩
    exact Moment.wellFormed h
  · exact ⟨_, Moment.check_respelled (fun _ => false) h⟩

end ClipRender
