import ClipRender.Proofs.Binary64.Reciprocals
import ClipRender.Proofs.ChainReading
import ClipRender.Proofs.NumberReading
import Mathlib.Tactic.LinearCombination

set_option autoImplicit false

/-!
The pace of video and audio. The factor for the timestamps is refused just where its text would be
zero, and the least speeds have one that is not finite. As long as the tempo is the speed, the two
numbers as they are written are reciprocals to within a little more than a millionth.
-/

namespace ClipRender.Filter

open Binary64 Decimal

namespace SpeedChange

section Making

variable {speed : Binary64} (hspeed : speed.isFinite = true) (hpos : 0 < speed.value)

include hspeed hpos

theorem ofSpeed_eq : ofSpeed speed =
    if speed.value = 1 then .ok none
    else if (one / speed).roundedPlaces? 6 = some 0 then .error (.speedTooHigh speed)
    else .ok (some ⟨one / speed, tempoFor speed⟩) := by
  have positive : ¬ Binary64.le speed zero = true := by
    rw [le_iff hspeed rfl, value_zero]
    exact not_le.mpr hpos
  rw [ofSpeed, if_neg positive]
  simp only [eq_iff hspeed isFinite_one, value_one]

theorem change_cases {change : Option SpeedChange} (h : ofSpeed speed = .ok change) :
    (speed.value = 1 ∧ change = none) ∨
      (speed.value ≠ 1 ∧ change = some ⟨one / speed, tempoFor speed⟩) := by
  rw [ofSpeed_eq hspeed hpos] at h
  split at h
  · next hone => exact .inl ⟨hone, (Except.ok.inj h).symm⟩
  · next hone =>
    split at h
    · cases h
    · exact .inr ⟨hone, (Except.ok.inj h).symm⟩

theorem factor_cases : (one / speed = .infinity false ∧ speed.value ≤ 1 / 2 ^ 1024) ∨
    ∃ r hr, one / speed = .finite false r hr ∧ 1 / 2 ^ 1024 < speed.value := by
  have finite_iff := isFinite_one_div_iff hspeed hpos
  obtain ⟨k, hk, rfl, hk0, -⟩ := exists_rank_of_pos hspeed hpos
  rw [one_div_finite hk hk0] at finite_iff ⊢
  rw [ofUnits, ofRank] at finite_iff ⊢
  split at finite_iff
  · next hr =>
    rw [dif_pos hr]
    exact .inr ⟨_, hr, rfl, finite_iff.mp rfl⟩
  · next hpast =>
    rw [dif_neg hpast]
    exact .inl ⟨rfl, not_lt.mp fun hmore => Bool.false_ne_true (finite_iff.mpr hmore)⟩

theorem frozen_iff : (one / speed).roundedPlaces? 6 = some 0
    ↔ (one / speed).isFinite = true ∧ (one / speed).value ≤ 1 / 2000000 := by
  rcases one_div_nonneg hspeed hpos with hinfinite | ⟨-, hnonneg⟩
  · rw [hinfinite]
    simp [roundedPlaces?, isFinite]
  · exact roundedPlaces_six_iff hnonneg

/-- A factor that is not written as zero is of a speed at which there are steps to round to. -/
theorem factor_near (hfinite : (one / speed).isFinite = true)
    (hmoves : (one / speed).roundedPlaces? 6 ≠ some 0) :
    |(one / speed).value - 1 / speed.value| ≤ 1 / speed.value / 2 ^ 53 := by
  refine one_div_near hspeed hpos ?_ hfinite
  by_contra hfast
  have hfast : (2 : ℚ) ^ 21 ≤ speed.value :=
    (pow_le_pow_right₀ one_le_two (by decide)).trans (not_lt.mp hfast)
  have small := one_div_le hspeed hpos (by decide) hfast hfinite
  refine hmoves ((frozen_iff hspeed hpos).mpr ⟨hfinite, small.trans ?_⟩)
  norm_num

end Making

theorem fixed_eq_zero_iff {r : Nat} {hr : r < rankLimit} : fixed 6 (finite false r hr) = "0.000000"
    ↔ (finite false r hr).roundedPlaces? 6 = some 0 := by
  rw [roundedPlaces?, Nat.pow_eq, Option.some_inj]
  generalize hn : roundHalfEven (unitsAt r * 10 ^ 6) unitsPerOne = n
  constructor
  · intro htext
    have literal := read?_fixed (by decide : 0 < 6) false hr hn
    have zero : Literal.read? "0.000000".toList = some ⟨false, 0, -6⟩ := by decide
    rw [htext, zero] at literal
    simpa using literal.symm
  · rintro rfl
    apply String.toList_inj.mp
    rw [toList_fixed (by decide) false hr hn]
    decide

theorem render_timestamps_iff {factor : Binary64} {text : String} :
    (Node.timestamps factor).render = "setpts=" ++ text ++ "*PTS" ↔ fixed 6 factor = text := by
  rw [Node.render, String.append_left_inj, String.append_right_inj]

/-- A text that can be used as the factor for a speed: digits alone, six of them behind the point,
for a positive number that is the reciprocal of the speed but for two roundings. -/
structure Usable (speed : Binary64) (text : String) (q : ℚ) : Prop where
  digits : ∃ numeral : Numeral, text.toList = numeral.text ∧ numeral.Plain ∧
    numeral.negative = false ∧ numeral.places.length = 6
  reads : number? text = some q
  pos : 0 < q
  near : |q - 1 / speed.value| ≤ 5 / 10 ^ 7 + 1 / speed.value / 2 ^ 53

section Factor

variable {speed : Binary64} (hspeed : speed.isFinite = true) (hpos : 0 < speed.value)

include hspeed hpos

/-- What is asked before a factor is written is whether its text would be zero. -/
theorem frozen_iff_text : (one / speed).roundedPlaces? 6 = some 0
    ↔ (Node.timestamps (one / speed)).render = "setpts=0.000000*PTS" := by
  have zero : "setpts=0.000000*PTS" = "setpts=" ++ "0.000000" ++ "*PTS" := by decide
  rw [zero, render_timestamps_iff]
  rcases factor_cases hspeed hpos with ⟨hinfinite, -⟩ | ⟨r, hr, hfactor, -⟩
  · rw [hinfinite]
    decide
  · rw [hfactor]
    exact fixed_eq_zero_iff.symm

theorem usable_factor (hfinite : (one / speed).isFinite = true)
    (hmoves : (one / speed).roundedPlaces? 6 ≠ some 0) :
    ∃ q, Usable speed (fixed 6 (one / speed)) q := by
  have near := factor_near hspeed hpos hfinite hmoves
  rcases factor_cases hspeed hpos with ⟨hinfinite, -⟩ | ⟨r, hr, hfactor, -⟩
  · rw [hinfinite] at hfinite
    cases hfinite
  · rw [hfactor] at near hmoves ⊢
    rw [roundedPlaces?, Nat.pow_eq, ne_eq, Option.some_inj] at hmoves
    have nearest := finite_nearest false hr (10 ^ 6)
    have read := number?_fixed (by decide : 0 < 6) false hr
    generalize hn : roundHalfEven (unitsAt r * 10 ^ 6) unitsPerOne = n at hmoves nearest read
    rw [if_neg Bool.false_ne_true, Nat.cast_pow, Nat.cast_ofNat] at nearest
    rw [signFactor, if_neg Bool.false_ne_true, one_mul] at read
    have rounded := nearest.quotient_near (by positivity)
    refine ⟨n / 10 ^ 6, ⟨.ofPlaces 6 false n, ?_, ?_, ?_, ?_⟩, read, ?_, ?_⟩
    · exact Numeral.toList_fixed_eq false (by decide) hr hn
    · exact Numeral.plain_ofPlaces 6 false n
    · exact Numeral.negative_ofPlaces 6 false n
    · exact Numeral.length_ofPlaces false n (by decide)
    · have hn0 : 0 < n := Nat.pos_of_ne_zero hmoves
      positivity
    · rw [Int.cast_natCast] at rounded
      calc |(n : ℚ) / 10 ^ 6 - 1 / speed.value|
          ≤ |(n : ℚ) / 10 ^ 6 - (finite false r hr).value|
            + |(finite false r hr).value - 1 / speed.value| := abs_sub_le _ _ _
        _ ≤ 1 / 2 / 10 ^ 6 + 1 / speed.value / 2 ^ 53 := add_le_add rounded near
        _ = 5 / 10 ^ 7 + 1 / speed.value / 2 ^ 53 := by norm_num

end Factor

/-- A speed makes no filters just when it is 1, and is refused just when the factor would be written
as zero, which is when the factor is rounded to zero. All other factors can be used but those of the
least speeds, which are written as infinite. -/
theorem ofSpeed_factor {speed : Binary64} (hspeed : speed.isFinite = true)
    (hpos : 0 < speed.value) :
    (ofSpeed speed = .ok none ↔ speed.value = 1) ∧
    ((∃ error, ofSpeed speed = .error error ∧ error.kind = .invalidEditSpec) ↔
      speed.value ≠ 1 ∧ (Node.timestamps (one / speed)).render = "setpts=0.000000*PTS") ∧
    (Binary64.eq ((one / speed).roundAt 6) zero = true ↔
      (Node.timestamps (one / speed)).render = "setpts=0.000000*PTS") ∧
    (speed.value ≠ 1 → (Node.timestamps (one / speed)).render ≠ "setpts=0.000000*PTS" →
      ∃ change text, ofSpeed speed = .ok (some change) ∧
        (Node.timestamps change.factor).render = "setpts=" ++ text ++ "*PTS" ∧
        (1 / 2 ^ 1024 < speed.value → ∃ q, Usable speed text q) ∧
        (speed.value ≤ 1 / 2 ^ 1024 → text = "inf")) := by
  have hplaces : 10 ^ 6 ≤ unitsPerOne := by decide +kernel
  rw [roundAt_eq_zero_iff hplaces, ← frozen_iff_text hspeed hpos, ofSpeed_eq hspeed hpos]
  refine ⟨?_, ?_, Iff.rfl, ?_⟩
  · split
    · next hone => simp [hone]
    · next hone => split <;> simp [hone]
  · split
    · next hone => simp [hone]
    · next hone =>
      split
      · next hzero => simp [hone, hzero, ExportError.kind]
      · next hmoves => simp [hmoves]
  · intro hone hmoves
    rw [ne_eq, ← frozen_iff_text hspeed hpos] at hmoves
    rw [if_neg hone, if_neg hmoves]
    refine ⟨_, _, rfl, render_timestamps_iff.mpr rfl, fun hmore => ?_, fun hless => ?_⟩
    · exact usable_factor hspeed hpos ((isFinite_one_div_iff hspeed hpos).mpr hmore) hmoves
    · rcases factor_cases hspeed hpos with ⟨hinfinite, -⟩ | ⟨r, hr, -, hmore⟩
      · rw [hinfinite]
        rfl
      · exact absurd hmore (not_lt.mpr hless)

theorem ofSpeed_factor_threeHalves : fixed 6 (one / ofQuotient 3 2) = "0.666667" ∧
    ∃ q, Usable (ofQuotient 3 2) "0.666667" q := by
  have finite : (ofQuotient 3 2).isFinite = true := by decide +kernel
  have positive : 0 < (ofQuotient 3 2).value := by
    rw [value_pos_iff]
    decide +kernel
  have changes : (ofQuotient 3 2).value ≠ 1 := by
    rw [← value_one, ne_eq, ← eq_iff finite isFinite_one]
    decide +kernel
  have large : 1 / 2 ^ 1024 < (ofQuotient 3 2).value := by
    rw [← isFinite_one_div_iff finite positive]
    decide +kernel
  have made : ofSpeed (ofQuotient 3 2)
      = .ok (some ⟨one / ofQuotient 3 2, tempoFor (ofQuotient 3 2)⟩) := by
    decide +kernel
  have written : fixed 6 (one / ofQuotient 3 2) = "0.666667" := by decide +kernel
  obtain ⟨-, -, -, all⟩ := ofSpeed_factor finite positive
  obtain ⟨change, text, hchange, htext, usable, -⟩ := all changes (by decide +kernel)
  rw [made, Except.ok.injEq, Option.some_inj] at hchange
  rw [← hchange, render_timestamps_iff, written] at htext
  exact ⟨written, htext ▸ usable large⟩

/-- The reciprocal of the least positive number is infinite, and so is written as a word. -/
theorem ofSpeed_infinite : ∃ speed change, speed.isFinite = true ∧ 0 < speed.value ∧
    speed.value ≠ 1 ∧ ofSpeed speed = .ok (some change) ∧
    (Node.timestamps change.factor).render = "setpts=inf*PTS" ∧ ∀ q, ¬ Usable speed "inf" q := by
  have finite : (finite false 1 (by decide)).isFinite = true := rfl
  refine ⟨.finite false 1 (by decide), ⟨.infinity false, minTempo⟩, finite, ?_, ?_, ?_, ?_, ?_⟩
  · rw [value_pos_iff]
    decide
  · rw [← value_one, ne_eq, ← eq_iff finite isFinite_one]
    decide +kernel
  · decide +kernel
  · decide
  · intro q h
    have none : number? "inf" = none := by
      rw [number?]
      decide
    rw [h.reads] at none
    cases none

section Tempo

theorem isFinite_minTempo : minTempo.isFinite = true := by decide +kernel

theorem isFinite_maxTempo : maxTempo.isFinite = true := (isWhole_ofNat (by decide)).isFinite

theorem value_minTempo : minTempo.value = 1 / 2 := by
  obtain ⟨r, hr⟩ := exists_rank 1 1073 (by decide)
  have hsplit := power_units (show 1073 + 1 = 1074 from rfl)
  have hunits : unitsAt r * 2 = 1 * unitsPerOne := by rw [hr, ← hsplit, Nat.pow_one, Nat.mul_assoc]
  have hsize : unitsAt r ≤ 2 ^ 0 * unitsPerOne := by omega
  exact_mod_cast value_ofQuotient two_pos (rank_lt_limit (by decide) hsize) hunits

theorem value_maxTempo : maxTempo.value = 2 := by
  have value := (isWhole_ofNat (n := 2) (by decide)).value
  exact_mod_cast value

variable {speed : Binary64} (hspeed : speed.isFinite = true)

include hspeed

theorem tempoFor_eq : tempoFor speed =
    if speed.value < 1 / 2 then minTempo else if 2 < speed.value then maxTempo else speed := by
  have below : Binary64.lt speed minTempo = true ↔ speed.value < 1 / 2 := by
    rw [lt_iff hspeed isFinite_minTempo, value_minTempo]
  have above : Binary64.lt maxTempo speed = true ↔ 2 < speed.value := by
    rw [lt_iff isFinite_maxTempo hspeed, value_maxTempo]
  have inside : ¬ Binary64.lt maxTempo minTempo = true := by
    rw [lt_iff isFinite_maxTempo isFinite_minTempo, value_maxTempo, value_minTempo]
    norm_num
  rw [tempoFor, Binary64.max]
  simp only [below]
  split
  · rw [Binary64.min, if_neg inside]
  · rw [Binary64.min]
    simp only [above]

theorem tempoFor_self (hlow : 1 / 2 ≤ speed.value) (hhigh : speed.value ≤ 2) :
    tempoFor speed = speed := by
  rw [tempoFor_eq hspeed, if_neg (not_lt.mpr hlow), if_neg (not_lt.mpr hhigh)]

theorem tempoFor_within : (tempoFor speed).Within (1 / 2) 2 := by
  rw [tempoFor_eq hspeed]
  split
  · exact ⟨isFinite_minTempo, value_minTempo.ge, by rw [value_minTempo]; norm_num⟩
  · next hlow =>
    split
    · exact ⟨isFinite_maxTempo, by rw [value_maxTempo]; norm_num, value_maxTempo.le⟩
    · next hhigh => exact ⟨hspeed, not_lt.mp hlow, not_lt.mp hhigh⟩

theorem warning?_eq_none_iff (factor : Binary64) :
    warning? speed ⟨factor, tempoFor speed⟩ = none ↔ 1 / 2 ≤ speed.value ∧ speed.value ≤ 2 := by
  have within := tempoFor_within hspeed
  have same : Binary64.eq (tempoFor speed) speed = true
      ↔ 1 / 2 ≤ speed.value ∧ speed.value ≤ 2 := by
    rw [eq_iff within.finite hspeed]
    constructor
    · intro hsame
      exact hsame ▸ ⟨within.low_le, within.le_high⟩
    · rintro ⟨hlow, hhigh⟩
      rw [tempoFor_self hspeed hlow hhigh]
  rw [← same, warning?]
  dsimp only
  split
  · next heq => exact iff_of_true rfl heq
  · next hne => exact iff_of_false nofun hne

theorem tempo_written : ∃ q, number? (numberText (tempoFor speed)) = some q ∧
    1 / 2 ≤ q ∧ q ≤ 2 ∧ |q - (tempoFor speed).value| ≤ 5 / 10 ^ 7 ∧
    (speed.value < 1 / 2 → numberText (tempoFor speed) = "0.5") ∧
    (2 < speed.value → numberText (tempoFor speed) = "2") := by
  have within := tempoFor_within hspeed
  have slow : numberText minTempo = "0.5" := by decide +kernel
  have fast : numberText maxTempo = "2" := by decide +kernel
  have half : number? (numberText minTempo) = some (1 / 2) := by
    have literal : Literal.read? "0.5".toList = some ⟨false, 5, -1⟩ := by decide
    rw [slow, number?, literal]
    norm_num [Literal.value, signFactor]
  have two : number? (numberText maxTempo) = some 2 := by
    have literal : Literal.read? "2".toList = some ⟨false, 2, 0⟩ := by decide
    rw [fast, number?, literal]
    norm_num [Literal.value, signFactor]
  obtain ⟨-, n, -, -, -, hnearest, hread⟩ := exists_numeral within.finite
  have near := hnearest.quotient_near (by positivity)
  refine ⟨_, hread, ?_, ?_, by linarith, fun hslow => ?_, fun hfast => ?_⟩
  · refine numberText_mono isFinite_minTempo within.finite ?_ half hread
    rw [le_iff isFinite_minTempo within.finite, value_minTempo]
    exact within.low_le
  · refine numberText_mono within.finite isFinite_maxTempo ?_ hread two
    rw [le_iff within.finite isFinite_maxTempo, value_maxTempo]
    exact within.le_high
  · rw [tempoFor_eq hspeed, if_pos hslow, slow]
  · rw [tempoFor_eq hspeed, if_neg (by linarith), if_pos hfast, fast]

end Tempo

theorem product_near {s f t : ℚ} (hlow : 1 / 2 ≤ s) (hhigh : s ≤ 2)
    (hf : |f - 1 / s| ≤ 5 / 10 ^ 7 + 1 / s / 2 ^ 53) (ht : |t - s| ≤ 5 / 10 ^ 7) :
    |f * t - 1| ≤ 13 / 10 ^ 7 := by
  have hs : 0 < s := by linarith
  have inverse : 1 / s * s = 1 := one_div_mul_cancel hs.ne'
  have hr : 0 < 1 / s := one_div_pos.mpr hs
  generalize 1 / s = r at hf inverse hr
  -- a number and its reciprocal have the greatest sum at the ends of the range
  have ends : 0 ≤ r * ((s - 1 / 2) * (2 - s)) :=
    mul_nonneg hr.le (mul_nonneg (sub_nonneg.mpr hlow) (sub_nonneg.mpr hhigh))
  have sum : s + r ≤ 5 / 2 := by linear_combination ends + (5 / 2 - s) * inverse
  have error : f * t - 1 = s * (f - r) + r * (t - s) + (f - r) * (t - s) := by
    linear_combination inverse
  have first : |s * (f - r)| ≤ s * (5 / 10 ^ 7) + 1 / 2 ^ 53 := by
    rw [abs_mul, abs_of_pos hs]
    calc s * |f - r| ≤ s * (5 / 10 ^ 7 + r / 2 ^ 53) := mul_le_mul_of_nonneg_left hf hs.le
      _ = s * (5 / 10 ^ 7) + 1 / 2 ^ 53 := by linear_combination inverse / 2 ^ 53
  have second : |r * (t - s)| ≤ r * (5 / 10 ^ 7) := by
    rw [abs_mul, abs_of_pos hr]
    exact mul_le_mul_of_nonneg_left ht hr.le
  have third : |(f - r) * (t - s)| ≤ 1 / 10 ^ 12 := by
    rw [abs_mul]
    calc |f - r| * |t - s| ≤ 1 / 10 ^ 6 * (5 / 10 ^ 7) := by
          refine mul_le_mul ?_ ht (abs_nonneg _) (by norm_num)
          linarith
      _ ≤ 1 / 10 ^ 12 := by norm_num
  rw [error]
  have total := abs_add_three (s * (f - r)) (r * (t - s)) ((f - r) * (t - s))
  linarith

theorem ofSpeed_between {speed : Binary64} (hspeed : speed.isFinite = true)
    (hlow : 1 / 2 ≤ speed.value) (hhigh : speed.value ≤ 2) (hone : speed.value ≠ 1) :
    ofSpeed speed = .ok (some ⟨one / speed, speed⟩) ∧
      ∃ q, Usable speed (fixed 6 (one / speed)) q := by
  have hpos : 0 < speed.value := by linarith
  have hfinite : (one / speed).isFinite = true := by
    refine (isFinite_one_div_iff hspeed hpos).mpr (lt_of_lt_of_le ?_ hlow)
    exact (one_div_lt_one_div (by positivity) two_pos).mpr (lt_self_pow₀ one_lt_two (by decide))
  have hless : speed.value < 2 ^ 1022 := by
    exact hhigh.trans_lt (lt_self_pow₀ one_lt_two (by decide))
  have near := abs_le.mp (one_div_near hspeed hpos hless hfinite)
  have half : 1 / 2 ≤ 1 / speed.value := one_div_le_one_div_of_le hpos hhigh
  have hmoves : (one / speed).roundedPlaces? 6 ≠ some 0 := by
    rw [ne_eq, frozen_iff hspeed hpos, not_and, not_le]
    intro _
    linarith
  refine ⟨?_, usable_factor hspeed hpos hfinite hmoves⟩
  rw [ofSpeed_eq hspeed hpos, if_neg hone, if_neg hmoves, tempoFor_self hspeed hlow hhigh]

end SpeedChange

namespace Graph

/-- Video and audio keep step: there is a tempo just where the timestamps change, it is in the range
of one stage, and what it lacks of the speed is told. -/
structure InStep (spec : EditSpec) (graph : Graph) : Prop where
  timed : "setpts" ∈ graph.video.map Node.name ↔ spec.speed.value ≠ 1
  paired : graph.audio.map Node.name = ["atempo"] ↔ "setpts" ∈ graph.video.map Node.name
  silent : "setpts" ∉ graph.video.map Node.name → graph.audio = []
  tempo : ∀ node ∈ graph.audio, ∃ text q, node.render = "atempo=" ++ text ∧
    number? text = some q ∧ 1 / 2 ≤ q ∧ q ≤ 2 ∧
    (spec.speed.value < 1 / 2 → text = "0.5") ∧ (2 < spec.speed.value → text = "2")
  warned : warnings spec ≠ [] ↔ spec.speed.value < 1 / 2 ∨ 2 < spec.speed.value

variable {spec : EditSpec}

variable (spec) in
theorem setpts_mem_paced (fontFile : Option String) (change : Option SpeedChange) :
    "setpts" ∈ (paced fontFile spec change).video.map Node.name ↔ change ≠ none := by
  cases change <;> simp [paced, Node.name]

theorem audio_paced (fontFile : Option String) (change : SpeedChange) :
    (paced fontFile spec (some change)).audio = [.audioTempo change.tempo] := rfl

theorem inStep_paced (fontFile : Option String) (hspec : spec.WellFormed)
    {change : Option SpeedChange} (hchange : SpeedChange.ofSpeed spec.speed = .ok change) :
    (paced fontFile spec change).InStep spec := by
  have hspeed := hspec.speed.1
  rcases SpeedChange.change_cases hspeed hspec.speed.2 hchange with ⟨hone, rfl⟩ | ⟨hone, rfl⟩
  · have untimed := setpts_mem_paced spec fontFile none
    refine ⟨?_, ?_, fun _ => rfl, fun node hmem => ?_, ?_⟩
    · rw [untimed]
      simp [hone]
    · rw [untimed]
      simp [paced]
    · cases hmem
    · rw [warnings, hchange, hone]
      norm_num
  · have timed := setpts_mem_paced spec fontFile
      (some ⟨one / spec.speed, SpeedChange.tempoFor spec.speed⟩)
    refine ⟨?_, ?_, fun hnone => ?_, fun node hmem => ?_, ?_⟩
    · rw [timed]
      simp [hone]
    · rw [timed]
      simp [paced, Node.name]
    · exact absurd (timed.mpr nofun) hnone
    · obtain ⟨q, hread, hlow, hhigh, -, hslow, hfast⟩ := SpeedChange.tempo_written hspeed
      rw [audio_paced, List.mem_singleton] at hmem
      refine ⟨numberText (SpeedChange.tempoFor spec.speed), q, ?_, hread, hlow, hhigh, hslow, hfast⟩
      rw [hmem, Node.render]
    · have quiet := SpeedChange.warning?_eq_none_iff hspeed (one / spec.speed)
      rw [warnings, hchange, ne_eq, Option.toList_eq_nil_iff, quiet, not_and_or, not_le, not_le]

/-- Each edit that is accepted has video and audio in step, and where the tempo is the speed the two
numbers as they are written are reciprocals but for little more than a millionth. -/
theorem ofSpec_inStep (fontFile : Option String) (hspec : spec.WellFormed) :
    (∀ graph, ofSpec fontFile spec = .ok graph → graph.InStep spec) ∧
    (1 / 2 ≤ spec.speed.value → spec.speed.value ≤ 2 → spec.speed.value ≠ 1 →
      ∃ graph factor tempo p q, ofSpec fontFile spec = .ok graph ∧
        "setpts=" ++ factor ++ "*PTS" ∈ graph.video.map Node.render ∧
        graph.audio.map Node.render = ["atempo=" ++ tempo] ∧
        number? factor = some p ∧ number? tempo = some q ∧ |p * q - 1| ≤ 13 / 10 ^ 7) := by
  refine ⟨fun graph hgraph => ?_, fun hlow hhigh hone => ?_⟩
  · rw [ofSpec_eq] at hgraph
    cases hchange : SpeedChange.ofSpeed spec.speed with
    | error failure =>
      rw [hchange] at hgraph
      cases hgraph
    | ok change =>
      rw [hchange] at hgraph
      obtain rfl := Except.ok.inj hgraph
      exact inStep_paced fontFile hspec hchange
  · obtain ⟨hmade, p, usable⟩ := SpeedChange.ofSpeed_between hspec.speed.1 hlow hhigh hone
    obtain ⟨q, hread, -, -, near, -⟩ := SpeedChange.tempo_written hspec.speed.1
    rw [SpeedChange.tempoFor_self hspec.speed.1 hlow hhigh] at hread near
    have timed : Node.timestamps (one / spec.speed)
        ∈ (paced fontFile spec (some ⟨one / spec.speed, spec.speed⟩)).video := by
      simp [paced]
    refine ⟨paced fontFile spec (some ⟨one / spec.speed, spec.speed⟩),
      fixed 6 (one / spec.speed), numberText spec.speed, p, q, ?_, ?_, rfl, usable.reads, hread,
      SpeedChange.product_near hlow hhigh usable.near near⟩
    · rw [ofSpec_eq, hmade]
      rfl
    · exact List.mem_map.mpr ⟨_, timed, SpeedChange.render_timestamps_iff.mpr rfl⟩

def Sample.hastenedSpec : EditSpec := { EditSpec.untouched with speed := ofQuotient 3 2 }

theorem ofSpec_inStep_threeHalves : ∃ graph p q, Sample.hastenedSpec.WellFormed ∧
    ofSpec none Sample.hastenedSpec = .ok graph ∧ graph.InStep Sample.hastenedSpec ∧
    graph.video.map Node.render = ["setpts=0.666667*PTS"] ∧
    graph.audio.map Node.render = ["atempo=1.5"] ∧
    number? "0.666667" = some p ∧ number? "1.5" = some q ∧ |p * q - 1| ≤ 13 / 10 ^ 7 := by
  have wellFormed : Sample.hastenedSpec.WellFormed := by
    have read : EditSpec.ofData (.object [("speed", .number (ofQuotient 3 2))])
        = .valid Sample.hastenedSpec :=
      Validation.Checked.eq_valid_of_value?_eq_some (by decide +kernel)
    exact EditSpec.wellFormed read
  have finite := wellFormed.speed.1
  obtain ⟨accepted, near⟩ := ofSpec_inStep none wellFormed
  have low : 1 / 2 ≤ Sample.hastenedSpec.speed.value := by
    rw [← SpeedChange.value_minTempo, ← le_iff SpeedChange.isFinite_minTempo finite]
    decide +kernel
  have high : Sample.hastenedSpec.speed.value ≤ 2 := by
    rw [← SpeedChange.value_maxTempo, ← le_iff finite SpeedChange.isFinite_maxTempo]
    decide +kernel
  have changes : Sample.hastenedSpec.speed.value ≠ 1 := by
    rw [← value_one, ne_eq, ← eq_iff finite isFinite_one]
    decide +kernel
  obtain ⟨graph, factor, tempo, p, q, hgraph, htimed, hpaced, hp, hq, hnear⟩ :=
    near low high changes
  have made : ofSpec none Sample.hastenedSpec = .ok
      ⟨[.timestamps (one / ofQuotient 3 2)], [.audioTempo (ofQuotient 3 2)]⟩ := by
    decide +kernel
  have video : (Node.timestamps (one / ofQuotient 3 2)).render = "setpts=0.666667*PTS" := by
    decide +kernel
  have audio : (Node.audioTempo (ofQuotient 3 2)).render = "atempo=1.5" := by decide +kernel
  have same := Except.ok.inj (hgraph.symm.trans made)
  have first : factor = "0.666667" := by
    have known : "setpts=0.666667*PTS" = "setpts=" ++ "0.666667" ++ "*PTS" := by decide
    rw [same, List.map_singleton, video, known, List.mem_singleton] at htimed
    rw [String.append_left_inj, String.append_right_inj] at htimed
    exact htimed
  have second : tempo = "1.5" := by
    have known : "atempo=1.5" = "atempo=" ++ "1.5" := by decide
    rw [same, List.map_singleton, audio, known, List.singleton_inj] at hpaced
    rw [String.append_right_inj] at hpaced
    exact hpaced.symm
  rw [first] at hp
  rw [second] at hq
  refine ⟨graph, p, q, wellFormed, hgraph, accepted graph hgraph, ?_, ?_, hp, hq, hnear⟩
  · rw [same, List.map_singleton, video]
  · rw [same, List.map_singleton, audio]

end Graph

end ClipRender.Filter
