import ClipRender.Proofs.Binary64.Nearness
import ClipRender.Proofs.TimestampReading
import ClipRender.Timing.TimeRange

set_option autoImplicit false

/-!
Trimming only shrinks a moment. Both ends stay on their side because rounding keeps the order, and
what is left ends where the trimmed moment ends, up to what is lost when its start and its length
are written in milliseconds.
-/

namespace ClipRender

open Binary64

namespace TimeRange

/-- The range begins with the moment at the earliest and reaches to `finish`, which is not past the
end of the moment. It has a length. -/
structure Inside (moment : Moment) (finish : Binary64) (range : TimeRange) : Prop where
  finite : range.seekSeconds.isFinite = true ∧ range.durationSeconds.isFinite = true ∧
    finish.isFinite = true
  start_le : moment.startTime.value ≤ range.seekSeconds.value
  start_lt : range.seekSeconds.value < finish.value
  finish_le : finish.value ≤ moment.endTime.value
  duration_pos : 0 < range.durationSeconds.value
  duration_le : range.durationSeconds.value ≤ moment.duration.value

theorem ofMoment_empty {moment : Moment} {spec : EditSpec}
    (h : le (moment.endTime + spec.trimEnd) (moment.startTime + spec.trimStart) = true) :
    ofMoment moment spec = .error (.emptyRange moment spec.trimStart spec.trimEnd) :=
  if_pos h

theorem ofMoment_some {moment : Moment} {spec : EditSpec}
    (h : le (moment.endTime + spec.trimEnd) (moment.startTime + spec.trimStart) = false) :
    ofMoment moment spec = .ok ⟨moment.startTime + spec.trimStart,
      (moment.endTime + spec.trimEnd) - (moment.startTime + spec.trimStart)⟩ :=
  if_neg (Bool.not_eq_true _ ▸ h)

section Trims

variable {moment : Moment} {spec : EditSpec} (hmoment : moment.WellFormed)
  (hspec : spec.WellFormed)

include hmoment hspec

theorem finish_inside : (moment.endTime + spec.trimEnd).isFinite = true ∧
    le (moment.endTime + spec.trimEnd) moment.endTime = true := by
  have late : 0 ≤ moment.endTime.value := (hmoment.startTime.2.trans_lt hmoment.order).le
  exact ⟨isFinite_add hmoment.endTime hspec.trimEnd.1 late hspec.trimEnd.2,
    add_le hmoment.endTime hspec.trimEnd.1 hspec.trimEnd.2⟩

/-- A start beyond all numbers is not before the end. -/
theorem start_inside
    (h : le (moment.endTime + spec.trimEnd) (moment.startTime + spec.trimStart) = false) :
    (moment.startTime + spec.trimStart).isFinite = true ∧
      le moment.startTime (moment.startTime + spec.trimStart) = true := by
  have later := le_add hmoment.startTime.1 hspec.trimStart.1 hspec.trimStart.2
  obtain ⟨hfinish, -⟩ := finish_inside hmoment hspec
  refine ⟨?_, later⟩
  rcases add_nonneg hmoment.startTime.1 hspec.trimStart.1 hmoment.startTime.2 hspec.trimStart.2 with
    hinfinite | ⟨hfinite, -⟩
  · rw [hinfinite, le_infinity_of_isFinite hfinish] at h
    cases h
  · exact hfinite

theorem inside
    (h : le (moment.endTime + spec.trimEnd) (moment.startTime + spec.trimStart) = false) :
    Inside moment (moment.endTime + spec.trimEnd)
      ⟨moment.startTime + spec.trimStart,
        (moment.endTime + spec.trimEnd) - (moment.startTime + spec.trimStart)⟩ := by
  obtain ⟨hfinish, earlier⟩ := finish_inside hmoment hspec
  obtain ⟨hstart, later⟩ := start_inside hmoment hspec h
  have shorter := sub_le_sub hfinish hstart hmoment.endTime hmoment.startTime.1 earlier later
  generalize moment.endTime + spec.trimEnd = finish at h hfinish earlier shorter ⊢
  generalize moment.startTime + spec.trimStart = start at h hstart later shorter ⊢
  have start_le := (le_iff hmoment.startTime.1 hstart).mp later
  have start_lt : start.value < finish.value := by
    rw [← Bool.not_eq_true, le_iff hfinish hstart] at h
    exact not_le.mp h
  obtain ⟨hlength, hpos⟩ := sub_of_lt hfinish hstart (hmoment.startTime.2.trans start_le) start_lt
  exact
    { finite := ⟨hstart, hlength, hfinish⟩
      start_le := start_le
      start_lt := start_lt
      finish_le := (le_iff hfinish hmoment.endTime).mp earlier
      duration_pos := hpos
      duration_le := (le_iff hlength hmoment.duration.1).mp shorter }

end Trims

/-- The start and the length as they are written, against the end. The length is rounded once when
it is taken, and both are rounded twice when they are counted. -/
theorem Inside.near {moment : Moment} {finish start : Binary64} (hstart : 0 ≤ start.value)
    (h : Inside moment finish ⟨start, finish - start⟩) {seek length : Nat}
    (hseek : Timestamp.milliseconds start = .ok seek)
    (hlength : Timestamp.milliseconds (finish - start) = .ok length) :
    |(seek + length : ℚ) - 1000 * finish.value| ≤ 1 + 1000 * finish.value / 2 ^ 51 := by
  have difference := abs_le.mp (sub_near h.finite.2.2 h.finite.1 h.finite.2.1)
  have counted := abs_le.mp (Timestamp.milliseconds_near hseek)
  have lasting := abs_le.mp (Timestamp.milliseconds_near hlength)
  have hless := h.start_lt
  dsimp only at hless difference
  rw [abs_of_pos (sub_pos.mpr hless)] at difference
  rw [abs_le]
  constructor <;> linarith

/-- The range that trimming leaves, or the report that it leaves none; and what is read from the
times of the range as they are written. -/
theorem ofMoment_inside {moment : Moment} {spec : EditSpec} (hmoment : moment.WellFormed)
    (hspec : spec.WellFormed) :
    ((∃ error, ofMoment moment spec = .error error ∧ error.kind = .invalidEditSpec)
      ↔ le (moment.endTime + spec.trimEnd) (moment.startTime + spec.trimStart) = true) ∧
    (le (moment.endTime + spec.trimEnd) (moment.startTime + spec.trimStart) = false →
      ∃ range, ofMoment moment spec = .ok range ∧
        Inside moment (moment.endTime + spec.trimEnd) range ∧
        ∀ seekText durationText, range.seek = .ok seekText → range.duration = .ok durationText →
          ∃ seek length, Timestamp.read? seekText = some seek ∧
            Timestamp.read? durationText = some length ∧
            |(seek + length : ℚ) - 1000 * (moment.endTime + spec.trimEnd).value|
              ≤ 1 + 1000 * (moment.endTime + spec.trimEnd).value / 2 ^ 51) := by
  constructor
  · constructor
    · rintro ⟨error, herror, -⟩
      by_contra hsome
      rw [ofMoment_some (Bool.not_eq_true _ ▸ hsome)] at herror
      cases herror
    · intro hnothing
      exact ⟨_, ofMoment_empty hnothing, rfl⟩
  · intro hsome
    have hinside := inside hmoment hspec hsome
    refine ⟨_, ofMoment_some hsome, hinside, ?_⟩
    intro seekText durationText hseekText hdurationText
    obtain ⟨seek, hseek, hreadSeek⟩ := Timestamp.format_reads hseekText
    obtain ⟨length, hlength, hreadLength⟩ := Timestamp.format_reads hdurationText
    refine ⟨seek, length, hreadSeek, hreadLength, hinside.near ?_ hseek hlength⟩
    exact hmoment.startTime.2.trans hinside.start_le

section Sample

/-- Ends that are no fractions of a power of two. -/
def tenths : Moment := ⟨ofQuotient 1 10, ofQuotient 7 10⟩

def tenthsTrimmed : EditSpec :=
  { EditSpec.untouched with trimStart := ofQuotient 1 5, trimEnd := ofQuotient (-1) 10 }

theorem tenths_computes :
    (Moment.ofData tenths.toJson).value? = some tenths ∧
      (EditSpec.ofData (.object [("trimStart", .number (ofQuotient 1 5)),
        ("trimEnd", .number (ofQuotient (-1) 10))])).value? = some tenthsTrimmed ∧
      le (tenths.endTime + tenthsTrimmed.trimEnd) (tenths.startTime + tenthsTrimmed.trimStart)
        = false ∧
      Timestamp.format (tenths.startTime + tenthsTrimmed.trimStart) = .ok "00:00:00.300" ∧
      Timestamp.format ((tenths.endTime + tenthsTrimmed.trimEnd)
        - (tenths.startTime + tenthsTrimmed.trimStart)) = .ok "00:00:00.300" := by
  decide +kernel

theorem tenths_wellFormed : tenths.WellFormed ∧ tenthsTrimmed.WellFormed := by
  obtain ⟨moment, spec, -⟩ := tenths_computes
  exact ⟨Moment.wellFormed (Validation.Checked.eq_valid_of_value?_eq_some moment),
    EditSpec.wellFormed (Validation.Checked.eq_valid_of_value?_eq_some spec)⟩

end Sample

theorem ofMoment_inside_tenths :
    ∃ range, ofMoment tenths tenthsTrimmed = .ok range ∧
      Inside tenths (tenths.endTime + tenthsTrimmed.trimEnd) range ∧
      range.seek = .ok "00:00:00.300" ∧ range.duration = .ok "00:00:00.300" ∧
      |(300 + 300 : ℚ) - 1000 * (tenths.endTime + tenthsTrimmed.trimEnd).value|
        ≤ 1 + 1000 * (tenths.endTime + tenthsTrimmed.trimEnd).value / 2 ^ 51 := by
  obtain ⟨-, htrimmed⟩ := ofMoment_inside tenths_wellFormed.1 tenths_wellFormed.2
  obtain ⟨-, -, hsome, hseek, hduration⟩ := tenths_computes
  obtain ⟨range, hrange, hinside, hnear⟩ := htrimmed hsome
  have same := Except.ok.inj (hrange.symm.trans (ofMoment_some hsome))
  rw [same] at hrange hinside hnear
  obtain ⟨seek, length, hread, hreadToo, hclose⟩ := hnear _ _ hseek hduration
  have count : Timestamp.read? "00:00:00.300" = some 300 := by decide
  obtain rfl : 300 = seek := Option.some.inj (count.symm.trans hread)
  obtain rfl : 300 = length := Option.some.inj (count.symm.trans hreadToo)
  exact ⟨_, hrange, hinside, hseek, hduration, by exact_mod_cast hclose⟩

end TimeRange

end ClipRender
