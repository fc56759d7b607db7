import ClipRender.Proofs.Binary64.Values
import ClipRender.Proofs.Checks

set_option autoImplicit false

/-!
What edit data and moments are once they have passed their checks, whatever was given: numbers are
finite and in range, names are there and tell the overlays apart, texts are not blank and are as
given, and what has a start ends after it.
-/

namespace ClipRender

open Validation

structure Binary64.Within (low high : ℚ) (x : Binary64) : Prop where
  finite : x.isFinite = true
  low_le : low ≤ x.value
  le_high : x.value ≤ high

structure TextOverlay.WellFormed (overlay : TextOverlay) : Prop where
  id : overlay.id ≠ ""
  text : ∃ c ∈ overlay.text.toList, Text.isBlank c = false
  x : ∀ x ∈ overlay.x, x.Within 0 1
  y : ∀ y ∈ overlay.y, y.Within 0 1
  fontSize : 0 < overlay.fontSize
  /-- A hash sign and then nothing but hexadecimal digits. -/
  color : ∃ digits, overlay.color.toList = '#' :: digits ∧
    (digits.length = 6 ∨ digits.length = 8) ∧ ∀ d ∈ digits, Color.isHexDigit d = true
  startSec : ∀ start ∈ overlay.startSec, start.isFinite = true ∧ 0 ≤ start.value
  endSec : ∀ finish ∈ overlay.endSec, finish.isFinite = true ∧ 0 ≤ finish.value
  window : ∀ start ∈ overlay.startSec, ∀ finish ∈ overlay.endSec, start.value < finish.value

structure EditSpec.WellFormed (spec : EditSpec) : Prop where
  aspectRatio : spec.aspectRatio.name ∈ ["9:16", "16:9", "1:1", "4:3", "original"]
  brightness : spec.brightness.Within (-1) 1
  contrast : spec.contrast.Within (-1) 1
  saturation : spec.saturation.Within (-1) 1
  speed : spec.speed.isFinite = true ∧ 0 < spec.speed.value
  trimStart : spec.trimStart.isFinite = true ∧ 0 ≤ spec.trimStart.value
  trimEnd : spec.trimEnd.isFinite = true ∧ spec.trimEnd.value ≤ 0
  overlays : ∀ overlay ∈ spec.textOverlays, overlay.WellFormed
  distinct : (spec.textOverlays.map (·.id)).Nodup
  cropX : spec.cropX.Within 0 1
  cropY : spec.cropY.Within 0 1
  cropW : spec.cropW.Within 0 1 ∧ 0 < spec.cropW.value
  cropH : spec.cropH.Within 0 1 ∧ 0 < spec.cropH.value

structure Moment.WellFormed (moment : Moment) : Prop where
  startTime : moment.startTime.isFinite = true ∧ 0 ≤ moment.startTime.value
  endTime : moment.endTime.isFinite = true
  order : moment.startTime.value < moment.endTime.value
  duration : moment.duration.isFinite = true ∧ 0 < moment.duration.value

section Records

variable {fields : Json.Fields} {origin : Origin}

theorem TextOverlay.checkFields_eq_valid {overlay : TextOverlay} :
    TextOverlay.checkFields fields = .valid overlay
      ↔ field (.word "id") nonEmptyText fields = .valid overlay.id ∧
        field (.word "text") checkText fields = .valid overlay.text ∧
        fieldOr (.word "x") (.valid none) share fields = .valid overlay.x ∧
        fieldOr (.word "y") (.valid none) share fields = .valid overlay.y ∧
        fieldOr ⟨"fontSize", "font_size"⟩ (.valid 36) (integerAbove 0) fields
          = .valid overlay.fontSize ∧
        fieldOr (.word "color") (.valid "#FFFFFF") Color.check fields = .valid overlay.color ∧
        fieldOr ⟨"startSec", "start_sec"⟩ (.valid none) instant fields = .valid overlay.startSec ∧
        fieldOr ⟨"endSec", "end_sec"⟩ (.valid none) instant fields = .valid overlay.endSec ∧
        fieldOr (.word "bold") (.valid false) flag fields = .valid overlay.bold := by
  constructor
  · simp only [TextOverlay.checkFields, Checked.seq_eq_valid, Checked.map_eq_valid]
    rintro ⟨_, _, ⟨_, _, ⟨_, _, ⟨_, _, ⟨_, _, ⟨_, _, ⟨_, _, ⟨_, _, ⟨_, hid, rfl⟩, htext, rfl⟩, hx,
      rfl⟩, hy, rfl⟩, hsize, rfl⟩, hcolor, rfl⟩, hstart, rfl⟩, hend, rfl⟩, hbold, rfl⟩
    exact ⟨hid, htext, hx, hy, hsize, hcolor, hstart, hend, hbold⟩
  · rintro ⟨hid, htext, hx, hy, hsize, hcolor, hstart, hend, hbold⟩
    rw [TextOverlay.checkFields, hid, htext, hx, hy, hsize, hcolor, hstart, hend, hbold]
    rfl

theorem EditSpec.checkFields_eq_valid {spec : EditSpec} :
    EditSpec.checkFields origin fields = .valid spec
      ↔ fieldOr ⟨"aspectRatio", "aspect_ratio"⟩ (.valid .uncropped) AspectRatio.check fields
          = .valid spec.aspectRatio ∧
        zeroIfAbsent (.word "brightness") adjustment fields = .valid spec.brightness ∧
        zeroIfAbsent (.word "contrast") adjustment fields = .valid spec.contrast ∧
        zeroIfAbsent (.word "saturation") adjustment fields = .valid spec.saturation ∧
        oneIfAbsent (.word "speed") (boundedNumber [.above 0]) fields = .valid spec.speed ∧
        zeroIfAbsent ⟨"trimStart", "trim_start"⟩ (boundedNumber [.atLeast 0]) fields
          = .valid spec.trimStart ∧
        zeroIfAbsent ⟨"trimEnd", "trim_end"⟩ (boundedNumber [.atMost 0]) fields
          = .valid spec.trimEnd ∧
        fieldOr ⟨"textOverlays", "text_overlays"⟩ (.valid []) (list (TextOverlay.check origin))
          fields = .valid spec.textOverlays ∧
        zeroIfAbsent ⟨"cropX", "crop_x"⟩ position fields = .valid spec.cropX ∧
        zeroIfAbsent ⟨"cropY", "crop_y"⟩ position fields = .valid spec.cropY ∧
        oneIfAbsent ⟨"cropW", "crop_w"⟩ extent fields = .valid spec.cropW ∧
        oneIfAbsent ⟨"cropH", "crop_h"⟩ extent fields = .valid spec.cropH := by
  constructor
  · simp only [EditSpec.checkFields, Checked.seq_eq_valid, Checked.map_eq_valid]
    rintro ⟨_, _, ⟨_, _, ⟨_, _, ⟨_, _, ⟨_, _, ⟨_, _, ⟨_, _, ⟨_, _, ⟨_, _, ⟨_, _, ⟨_, _, ⟨_, hratio,
      rfl⟩, hbright, rfl⟩, hcontrast, rfl⟩, hsat, rfl⟩, hspeed, rfl⟩, hstart, rfl⟩, hend, rfl⟩,
      htexts, rfl⟩, hx, rfl⟩, hy, rfl⟩, hw, rfl⟩, hh, rfl⟩
    exact ⟨hratio, hbright, hcontrast, hsat, hspeed, hstart, hend, htexts, hx, hy, hw, hh⟩
  · rintro ⟨hratio, hbright, hcontrast, hsat, hspeed, hstart, hend, htexts, hx, hy, hw, hh⟩
    rw [EditSpec.checkFields, hratio, hbright, hcontrast, hsat, hspeed, hstart, hend, htexts, hx,
      hy, hw, hh]
    rfl

theorem Moment.checkFields_eq_valid {moment : Moment} :
    Moment.checkFields fields = .valid moment
      ↔ field ⟨"startTime", "start_time"⟩ (boundedNumber [.atLeast 0]) fields
          = .valid moment.startTime ∧
        field ⟨"endTime", "end_time"⟩ (boundedNumber [.above 0]) fields
          = .valid moment.endTime := by
  constructor
  · simp only [Moment.checkFields, Checked.seq_eq_valid, Checked.map_eq_valid]
    rintro ⟨_, _, ⟨_, hstart, rfl⟩, hend, rfl⟩
    exact ⟨hstart, hend⟩
  · rintro ⟨hstart, hend⟩
    rw [Moment.checkFields, hstart, hend]
    rfl

theorem TextOverlay.check_eq_valid {v : Json.Value} {overlay : TextOverlay} :
    TextOverlay.check origin v = .valid overlay
      ↔ ∃ fields, v = .object fields ∧ TextOverlay.checkFields fields = .valid overlay ∧
        ∀ start ∈ overlay.startSec, ∀ finish ∈ overlay.endSec,
          Binary64.le finish start = false := by
  apply record_andThen_eq_valid
  intro checked overlay
  constructor
  · intro h
    unfold checkWindow window? at h
    split at h
    · next start finish hset =>
      split at h
      · exact nomatch h
      · next hle =>
        cases h
        refine ⟨rfl, fun s hs e he => ?_⟩
        rw [Option.mem_def.mp hs, Option.mem_def.mp he] at hset
        cases hset
        simpa using hle
    · next hset =>
      cases h
      refine ⟨rfl, fun s hs e he => ?_⟩
      rw [Option.mem_def.mp hs, Option.mem_def.mp he] at hset
      exact nomatch hset
  · rintro ⟨rfl, hordered⟩
    unfold checkWindow window?
    cases hs : checked.startSec with
    | none => rfl
    | some start =>
      cases he : checked.endSec with
      | none => rfl
      | some finish => simp [hordered start hs finish he]

theorem EditSpec.repeated?_eq_none {seen ids : List String} :
    repeated? seen ids = none ↔ ids.Nodup ∧ ∀ id ∈ ids, id ∉ seen := by
  induction ids generalizing seen with
  | nil => simp [repeated?]
  | cons id rest ih =>
    rw [repeated?]
    by_cases hseen : id ∈ seen
    · simp [hseen]
    · simp only [List.contains_eq_mem, hseen, decide_false, Bool.false_eq_true, if_false, ih,
        List.nodup_cons, List.mem_cons, not_or, forall_eq_or_imp, not_false_eq_true, true_and]
      constructor
      · rintro ⟨hrest, hnew⟩
        exact ⟨⟨fun hid => (hnew id hid).1 rfl, hrest⟩, fun other hother => (hnew other hother).2⟩
      · rintro ⟨⟨hid, hrest⟩, hnew⟩
        exact ⟨hrest, fun other hother => ⟨fun hsame => hid (hsame ▸ hother), hnew other hother⟩⟩

theorem EditSpec.check_eq_valid {v : Json.Value} {spec : EditSpec} :
    EditSpec.check origin v = .valid spec
      ↔ ∃ fields, v = .object fields ∧ EditSpec.checkFields origin fields = .valid spec ∧
        (spec.textOverlays.map (·.id)).Nodup := by
  apply record_andThen_eq_valid
  intro checked spec
  unfold checkOverlayIds
  split
  · next id hrepeated =>
    constructor
    · exact fun h => nomatch h
    · rintro ⟨rfl, hdistinct⟩
      rw [repeated?_eq_none.mpr ⟨hdistinct, fun _ _ => List.not_mem_nil⟩] at hrepeated
      exact nomatch hrepeated
  · next hnone =>
    constructor
    · intro h
      cases h
      exact ⟨rfl, (repeated?_eq_none.mp hnone).1⟩
    · rintro ⟨rfl, _⟩
      rfl

theorem Moment.check_eq_valid {v : Json.Value} {moment : Moment} :
    Moment.check origin v = .valid moment
      ↔ ∃ fields, v = .object fields ∧ Moment.checkFields fields = .valid moment ∧
        Binary64.le moment.endTime moment.startTime = false := by
  apply record_andThen_eq_valid
  intro checked moment
  unfold checkOrder
  split
  · next hle =>
    constructor
    · exact fun h => nomatch h
    · rintro ⟨rfl, hordered⟩
      rw [hle] at hordered
      exact nomatch hordered
  · next hle =>
    constructor
    · intro h
      cases h
      exact ⟨rfl, by simpa using hle⟩
    · rintro ⟨rfl, _⟩
      rfl

end Records

section Bounds

/-- What a bound says of an exact value. -/
def Validation.Bound.Allows (x : ℚ) : Bound → Prop
  | .atLeast n => n ≤ x
  | .above n => n < x
  | .atMost n => x ≤ n

def Validation.Bound.limit : Bound → Int
  | .atLeast n => n
  | .above n => n
  | .atMost n => n

structure Fits (bounds : List Bound) (x : Binary64) : Prop where
  finite : x.isFinite = true
  allowed : ∀ b ∈ bounds, b.Allows x.value

theorem Validation.Bound.holds_iff {b : Bound} (hb : b.limit.natAbs ≤ 2 ^ 53) {x : Binary64}
    (hx : x.isFinite = true) : b.holds x = true ↔ b.Allows x.value := by
  cases b with
  | atLeast n =>
    change n.natAbs ≤ 2 ^ 53 at hb
    rw [Bound.holds, Binary64.le_iff (Binary64.isFinite_ofInt hb) hx, Binary64.value_ofInt hb]
    rfl
  | above n =>
    change n.natAbs ≤ 2 ^ 53 at hb
    rw [Bound.holds, Binary64.lt_iff (Binary64.isFinite_ofInt hb) hx, Binary64.value_ofInt hb]
    rfl
  | atMost n =>
    change n.natAbs ≤ 2 ^ 53 at hb
    rw [Bound.holds, Binary64.le_iff hx (Binary64.isFinite_ofInt hb), Binary64.value_ofInt hb]
    rfl

variable {bounds : List Bound} (hbounds : ∀ b ∈ bounds, b.limit.natAbs ≤ 2 ^ 53)

include hbounds

theorem boundedNumber_iff {v : Json.Value} {x : Binary64} :
    boundedNumber bounds v = .valid x ↔ number v = .valid x ∧ Fits bounds x := by
  rw [boundedNumber_eq_valid]
  constructor
  · rintro ⟨hnumber, hfinite, hall⟩
    exact ⟨hnumber, hfinite, fun b hb => (Bound.holds_iff (hbounds b hb) hfinite).mp (hall b hb)⟩
  · rintro ⟨hnumber, hfinite, hall⟩
    exact ⟨hnumber, hfinite, fun b hb => (Bound.holds_iff (hbounds b hb) hfinite).mpr (hall b hb)⟩

theorem fits_of_fieldOr {name : FieldName} {default x : Binary64} {fields : Json.Fields}
    (hdefault : Fits bounds default)
    (h : fieldOr name (.valid default) (boundedNumber bounds) fields = .valid x) :
    Fits bounds x := by
  rcases fieldOr_cases h with habsent | ⟨v, hv⟩
  · cases habsent
    exact hdefault
  · exact ((boundedNumber_iff hbounds).mp hv).2

end Bounds

section Ranges

variable {x : Binary64}

theorem fits_nil : Fits [] x ↔ x.isFinite = true :=
  ⟨Fits.finite, fun h => ⟨h, fun _ hb => nomatch hb⟩⟩

theorem fits_cons {b : Bound} {bounds : List Bound} :
    Fits (b :: bounds) x ↔ b.Allows x.value ∧ Fits bounds x := by
  constructor
  · rintro ⟨hfinite, hall⟩
    exact ⟨hall b List.mem_cons_self, hfinite, fun c hc => hall c (List.mem_cons_of_mem b hc)⟩
  · rintro ⟨hb, hfinite, hall⟩
    exact ⟨hfinite, List.forall_mem_cons.mpr ⟨hb, hall⟩⟩

theorem fits_atLeast {n : Int} : Fits [.atLeast n] x ↔ x.isFinite = true ∧ n ≤ x.value := by
  rw [fits_cons, fits_nil]
  exact and_comm

theorem fits_above {n : Int} : Fits [.above n] x ↔ x.isFinite = true ∧ n < x.value := by
  rw [fits_cons, fits_nil]
  exact and_comm

theorem fits_atMost {n : Int} : Fits [.atMost n] x ↔ x.isFinite = true ∧ x.value ≤ n := by
  rw [fits_cons, fits_nil]
  exact and_comm

theorem fits_within {low high : Int} :
    Fits [.atLeast low, .atMost high] x ↔ x.Within low high := by
  rw [fits_cons, fits_atMost]
  exact ⟨fun h => ⟨h.2.1, h.1, h.2.2⟩, fun h => ⟨h.low_le, h.finite, h.le_high⟩⟩

theorem fits_extent : Fits [.above 0, .atMost 1] x ↔ x.Within 0 1 ∧ 0 < x.value := by
  rw [fits_cons, fits_atMost]
  constructor
  · rintro ⟨hpos, hfinite, hle⟩
    norm_num [Bound.Allows] at hpos hle
    exact ⟨⟨hfinite, hpos.le, hle⟩, hpos⟩
  · rintro ⟨⟨hfinite, _, hle⟩, hpos⟩
    norm_num [Bound.Allows]
    exact ⟨hpos, hfinite, hle⟩

theorem Binary64.value_zero : Binary64.zero.value = 0 := by
  have hunits : Binary64.zero.signedUnits = 0 := by decide
  rw [value, hunits, Int.cast_zero, zero_div]

theorem Binary64.one_eq_ofInt : Binary64.one = ofInt 1 := by
  rw [one, ofNat, ofInt, decide_eq_false (by decide), Int.natAbs_one]

theorem Binary64.value_one : Binary64.one.value = 1 := by
  rw [one_eq_ofInt, value_ofInt (by decide), Int.cast_one]

theorem Binary64.isFinite_one : Binary64.one.isFinite = true := by
  rw [one_eq_ofInt]
  exact isFinite_ofInt (by decide)

end Ranges

section Fields

theorem fits_zero {bounds : List Bound} :
    Fits bounds Binary64.zero ↔ ∀ b ∈ bounds, b.Allows 0 := by
  constructor
  · exact fun h b hb => Binary64.value_zero ▸ h.allowed b hb
  · exact fun h => ⟨rfl, fun b hb => Binary64.value_zero ▸ h b hb⟩

theorem fits_one {bounds : List Bound} : Fits bounds Binary64.one ↔ ∀ b ∈ bounds, b.Allows 1 := by
  constructor
  · exact fun h b hb => Binary64.value_one ▸ h.allowed b hb
  · exact fun h => ⟨Binary64.isFinite_one, fun b hb => Binary64.value_one ▸ h b hb⟩

theorem fits_of_optional {bounds : List Bound} {name : FieldName} {fields : Json.Fields}
    {x : Option Binary64} (hbounds : ∀ b ∈ bounds, b.limit.natAbs ≤ 2 ^ 53)
    (h : fieldOr name (.valid none) (optional (boundedNumber bounds)) fields = .valid x) :
    ∀ y ∈ x, Fits bounds y := by
  rintro y hy
  rw [Option.mem_def] at hy
  subst hy
  rcases fieldOr_cases h with habsent | ⟨v, hv⟩
  · exact nomatch habsent
  · exact ((boundedNumber_iff hbounds).mp (optional_eq_some.mp hv).2).2

theorem not_isBlankText_iff {s : String} :
    Text.isBlankText s = false ↔ ∃ c ∈ s.toList, Text.isBlank c = false := by
  simp [Text.isBlankText]

/-- A colour in the form in which it is kept: with its hash sign. -/
theorem Color.exists_digits {v : Json.Value} {color : String} (h : Color.check v = .valid color) :
    ∃ digits, color.toList = '#' :: digits ∧ Color.isDigits digits = true := by
  obtain ⟨s, hs, rfl⟩ := Checked.map_eq_valid.mp h
  have hcolor := (Checked.ensure_eq_valid.mp hs).2
  rw [Color.withHash]
  cases hcs : s.toList with
  | nil => simp [hcs, Color.isColor, Color.isDigits] at hcolor
  | cons c cs =>
    by_cases hc : c = '#'
    · subst hc
      refine ⟨cs, by simp [hcs], ?_⟩
      simpa [hcs, Color.isColor] using hcolor
    · refine ⟨c :: cs, by simp [hcs, hc], ?_⟩
      rw [hcs, Color.isColor] at hcolor
      · exact hcolor
      · rintro _ ⟨⟩
        exact hc rfl

theorem Color.isDigits_iff {digits : List Char} :
    Color.isDigits digits = true
      ↔ (digits.length = 6 ∨ digits.length = 8) ∧ ∀ d ∈ digits, Color.isHexDigit d = true := by
  simp [Color.isDigits, and_comm]

end Fields

variable {origin : Origin} {v : Json.Value}

theorem TextOverlay.wellFormed {overlay : TextOverlay}
    (h : TextOverlay.check origin v = .valid overlay) : overlay.WellFormed := by
  obtain ⟨fields, rfl, hfields, hwindow⟩ := check_eq_valid.mp h
  obtain ⟨hid, htext, hx, hy, hsize, hcolor, hstart, hend, -⟩ := checkFields_eq_valid.mp hfields
  have hshare : ∀ {name x}, fieldOr name (.valid none) share fields = .valid x →
      ∀ y ∈ x, y.Within 0 1 := by
    intro name x hx y hy
    have hfits := fits_of_optional (by decide) hx y hy
    exact_mod_cast fits_within.mp hfits
  have hinstant : ∀ {name x}, fieldOr name (.valid none) instant fields = .valid x →
      ∀ y ∈ x, y.isFinite = true ∧ 0 ≤ y.value := by
    intro name x hx y hy
    have hfits := fits_of_optional (by decide) hx y hy
    exact_mod_cast fits_atLeast.mp hfits
  constructor
  case id =>
    obtain ⟨_, _, _, hcheck⟩ := field_eq_valid.mp hid
    simpa using (Checked.ensure_eq_valid.mp hcheck).2
  case text =>
    obtain ⟨_, _, _, hcheck⟩ := field_eq_valid.mp htext
    have hblank := (Checked.ensure_eq_valid.mp hcheck).2
    rw [Bool.not_eq_true'] at hblank
    exact not_isBlankText_iff.mp hblank
  case x => exact hshare hx
  case y => exact hshare hy
  case fontSize =>
    rcases fieldOr_cases hsize with habsent | ⟨_, hcheck⟩
    · rw [← Checked.valid.inj habsent]
      decide
    · exact of_decide_eq_true (Checked.ensure_eq_valid.mp hcheck).2
  case color =>
    rcases fieldOr_cases hcolor with habsent | ⟨_, hcheck⟩
    · rw [← Checked.valid.inj habsent]
      exact ⟨"FFFFFF".toList, rfl, Color.isDigits_iff.mp (by decide)⟩
    · obtain ⟨digits, hdigits, hshape⟩ := Color.exists_digits hcheck
      exact ⟨digits, hdigits, Color.isDigits_iff.mp hshape⟩
  case startSec => exact hinstant hstart
  case endSec => exact hinstant hend
  case window =>
    intro start hs finish he
    have hle := hwindow start hs finish he
    rw [← Bool.not_eq_true, Binary64.le_iff (hinstant hend finish he).1 (hinstant hstart start hs).1,
      not_le] at hle
    exact hle

theorem EditSpec.wellFormed {spec : EditSpec} (h : EditSpec.check origin v = .valid spec) :
    spec.WellFormed := by
  obtain ⟨fields, rfl, hfields, hdistinct⟩ := check_eq_valid.mp h
  obtain ⟨-, hbright, hcontrast, hsat, hspeed, hstart, hend, htexts, hx, hy, hw, hh⟩ :=
    checkFields_eq_valid.mp hfields
  have hadjustment : ∀ {name x}, zeroIfAbsent name adjustment fields = .valid x →
      x.Within (-1) 1 := by
    intro name x hx
    have hfits := fits_of_fieldOr (by decide) (fits_zero.mpr (by simp [Bound.Allows])) hx
    exact_mod_cast fits_within.mp hfits
  have hposition : ∀ {name x}, zeroIfAbsent name position fields = .valid x → x.Within 0 1 := by
    intro name x hx
    have hfits := fits_of_fieldOr (by decide) (fits_zero.mpr (by simp [Bound.Allows])) hx
    exact_mod_cast fits_within.mp hfits
  have hextent : ∀ {name x}, oneIfAbsent name extent fields = .valid x →
      x.Within 0 1 ∧ 0 < x.value := by
    intro name x hx
    have hfits := fits_of_fieldOr (by decide) (fits_one.mpr (by simp [Bound.Allows])) hx
    exact fits_extent.mp hfits
  constructor
  case aspectRatio => cases spec.aspectRatio <;> decide
  case brightness => exact hadjustment hbright
  case contrast => exact hadjustment hcontrast
  case saturation => exact hadjustment hsat
  case speed =>
    have hfits := fits_of_fieldOr (by decide) (fits_one.mpr (by simp [Bound.Allows])) hspeed
    exact_mod_cast fits_above.mp hfits
  case trimStart =>
    have hfits := fits_of_fieldOr (by decide) (fits_zero.mpr (by simp [Bound.Allows])) hstart
    exact_mod_cast fits_atLeast.mp hfits
  case trimEnd =>
    have hfits := fits_of_fieldOr (by decide) (fits_zero.mpr (by simp [Bound.Allows])) hend
    exact_mod_cast fits_atMost.mp hfits
  case overlays =>
    rcases fieldOr_cases htexts with habsent | ⟨_, hcheck⟩
    · rw [← Checked.valid.inj habsent]
      exact fun _ hmem => nomatch hmem
    · obtain ⟨items, -, hitems⟩ := list_eq_valid.mp hcheck
      rw [List.forall₂_iff_get] at hitems
      intro overlay hmem
      obtain ⟨n, hn, rfl⟩ := List.getElem_of_mem hmem
      exact TextOverlay.wellFormed (hitems.2 n (hitems.1 ▸ hn) hn)
  case distinct => exact hdistinct
  case cropX => exact hposition hx
  case cropY => exact hposition hy
  case cropW => exact hextent hw
  case cropH => exact hextent hh

theorem EditSpec.exists_digits {data : Json.Value} {spec : EditSpec}
    (h : EditSpec.ofData data = .valid spec) :
    ∀ overlay ∈ spec.textOverlays, ∃ digits, overlay.color.toList = '#' :: digits ∧
      Color.isDigits digits = true := by
  intro overlay hmem
  obtain ⟨digits, hcolor, hdigits⟩ := ((wellFormed h).overlays overlay hmem).color
  exact ⟨digits, hcolor, Color.isDigits_iff.mpr hdigits⟩

theorem Moment.wellFormed {moment : Moment} (h : Moment.check origin v = .valid moment) :
    moment.WellFormed := by
  obtain ⟨fields, rfl, hfields, horder⟩ := check_eq_valid.mp h
  obtain ⟨hstart, hend⟩ := checkFields_eq_valid.mp hfields
  obtain ⟨_, _, _, hstart⟩ := field_eq_valid.mp hstart
  obtain ⟨_, _, _, hend⟩ := field_eq_valid.mp hend
  have hstart := fits_atLeast.mp ((boundedNumber_iff (by decide)).mp hstart).2
  have hend := fits_above.mp ((boundedNumber_iff (by decide)).mp hend).2
  rw [Int.cast_zero] at hstart
  have hlt : moment.startTime.value < moment.endTime.value := by
    rw [← Bool.not_eq_true, Binary64.le_iff hend.1 hstart.1, not_le] at horder
    exact horder
  exact ⟨hstart, hend.1, hlt, Binary64.sub_of_lt hend.1 hstart.1 hstart.2 hlt⟩

end ClipRender
