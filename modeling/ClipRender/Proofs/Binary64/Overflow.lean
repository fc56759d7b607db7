import ClipRender.Proofs.Binary64.Wholes

set_option autoImplicit false

/-!
Where results leave the finite numbers. A sum of numbers of opposite signs never does; a sum, a
product or a quotient that does is infinite and not a NaN, so that only a whole part is missing.
-/

namespace ClipRender.Binary64

variable {x y : Binary64} {num den : Nat}

theorem isFinite_ofUnits (negative : Bool) {r : Nat} (hden : 0 < den) (hr : r < rankLimit)
    (h : num ≤ unitsAt r * den) : (ofUnits negative num den).isFinite = true := by
  rw [ofUnits, ofRank, dif_pos ((nearestRank_le hden h).trans_lt hr)]
  rfl

/-- What is not negative is finite and not negative once it is rounded, or it is beyond all finite
numbers. -/
theorem ofUnits_nonneg (num den : Nat) : ofUnits false num den = .infinity false ∨
    ((ofUnits false num den).isFinite = true ∧ 0 ≤ (ofUnits false num den).value) := by
  rw [ofUnits, ofRank]
  split
  · refine .inr ⟨rfl, value_nonneg_iff.mpr ?_⟩
    exact Int.natCast_nonneg _
  · exact .inl rfl

theorem signedZero_nonneg (negative : Bool) :
    (signedZero negative).isFinite = true ∧ 0 ≤ (signedZero negative).value := by
  refine ⟨rfl, value_nonneg_iff.mpr ?_⟩
  cases negative <;> decide

section Sums

variable (hx : x.isFinite = true) (hy : y.isFinite = true)

include hx hy

theorem add_nonneg (hx0 : 0 ≤ x.value) (hy0 : 0 ≤ y.value) :
    x + y = .infinity false ∨ ((x + y).isFinite = true ∧ 0 ≤ (x + y).value) := by
  rw [value_nonneg_iff] at hx0 hy0
  by_cases hsum : x.signedUnits + y.signedUnits = 0
  · obtain ⟨s, hzero⟩ := add_of_eq_zero hx hy hsum
    rw [hzero]
    exact .inr (signedZero_nonneg s)
  · rw [add_eq hx hy hsum, decide_eq_false (by omega)]
    exact ofUnits_nonneg _ 1

theorem isFinite_add (hx0 : 0 ≤ x.value) (hy0 : y.value ≤ 0) : (x + y).isFinite = true := by
  have hy0 : y.signedUnits ≤ 0 := by
    have hle := not_lt.mpr hy0
    rw [value_pos_iff] at hle
    omega
  rw [value_nonneg_iff] at hx0
  by_cases hsum : x.signedUnits + y.signedUnits = 0
  · obtain ⟨s, hzero⟩ := add_of_eq_zero hx hy hsum
    rw [hzero]
    rfl
  · rw [add_eq hx hy hsum]
    generalize decide (x.signedUnits + y.signedUnits < 0) = negative
    -- the greater of the two magnitudes bounds the sum
    cases x with
    | finite s r hr =>
      cases y with
      | finite t k hk =>
        rcases Nat.le_total k r with hle | hle
        · refine isFinite_ofUnits _ Nat.one_pos hr ?_
          have hunits := unitsAt_strictMono.monotone hle
          cases s <;> cases t <;> simp [signedUnits] at hx0 hy0 ⊢ <;> omega
        · refine isFinite_ofUnits _ Nat.one_pos hk ?_
          have hunits := unitsAt_strictMono.monotone hle
          cases s <;> cases t <;> simp [signedUnits] at hx0 hy0 ⊢ <;> omega
      | infinity t => cases hy
      | nan => cases hy
    | infinity s => cases hx
    | nan => cases hx

end Sums

theorem exists_round (hx : x.isFinite = true) : ∃ n, x.round = .ok n := by
  cases x with
  | finite s r hr => exact ⟨_, rfl⟩
  | infinity s => cases hx
  | nan => cases hx

theorem round_mul (hx : x.isFinite = true) (hy : y.isFinite = true)
    (hover : (x * y).isFinite = false) : (x * y).round = .error .infinity := by
  cases x with
  | finite s r hr =>
    cases y with
    | finite t k hk =>
      rw [finite_mul, ofUnits, ofRank] at hover ⊢
      split at hover
      · cases hover
      · next hpast =>
        rw [dif_neg hpast]
        rfl
    | infinity t => cases hy
    | nan => cases hy
  | infinity s => cases hx
  | nan => cases hx

theorem exists_rank_of_pos (hx : x.isFinite = true) (hpos : 0 < x.value) :
    ∃ r hr, x = finite false r hr ∧ 0 < r ∧ x.value = unitsAt r / unitsPerOne := by
  rw [value_pos_iff] at hpos
  cases x with
  | finite s r hr =>
    obtain rfl := sign_of_pos hpos
    refine ⟨r, hr, rfl, ?_, by rw [value, signedUnits, if_neg Bool.false_ne_true, Int.cast_natCast]⟩
    rcases Nat.eq_zero_or_pos r with rfl | hr0
    · simp [signedUnits] at hpos
    · exact hr0
  | infinity s => cases hx
  | nan => cases hx

theorem one_div_finite {r : Nat} (hr : r < rankLimit) (hr0 : 0 < r) :
    one / finite false r hr = ofUnits false (unitsPerOne * unitsPerOne) (unitsAt r) := by
  obtain ⟨o, ho, hone, hunits⟩ := isWhole_ofNat (n := 1) (by decide)
  rw [one, hone, finite_div _ _ _ _ hr0, hunits, Nat.one_mul, Bool.false_bne]

theorem one_div_nonneg (hx : x.isFinite = true) (hpos : 0 < x.value) :
    one / x = .infinity false ∨ ((one / x).isFinite = true ∧ 0 ≤ (one / x).value) := by
  obtain ⟨r, hr, rfl, hr0, -⟩ := exists_rank_of_pos hx hpos
  rw [one_div_finite hr hr0]
  exact ofUnits_nonneg _ _

theorem roundHalfEven_eq_zero_iff (hden : 0 < den) : roundHalfEven num den = 0 ↔ 2 * num ≤ den := by
  have hsplit := Nat.div_add_mod num den
  have hmod := Nat.mod_lt num hden
  unfold roundHalfEven
  rcases Nat.eq_zero_or_pos (num / den) with hzero | hsome
  · rw [hzero] at hsplit ⊢
    split <;> omega
  · have hmore : den ≤ den * (num / den) := Nat.le_mul_of_pos_right den hsome
    split <;> omega

/-- No place of six is left but zeros when a number is at most half a millionth. -/
theorem roundedPlaces_six_iff (hnonneg : 0 ≤ x.value) : x.roundedPlaces? 6 = some 0
    ↔ x.isFinite = true ∧ x.value ≤ 1 / 2000000 := by
  cases x with
  | finite s r hr =>
    have hunits : ((finite s r hr).signedUnits : ℚ) = unitsAt r := by
      rw [value_nonneg_iff] at hnonneg
      cases s with
      | false => rfl
      | true =>
        simp only [signedUnits, if_true] at hnonneg ⊢
        have hzero : unitsAt r = 0 := by omega
        simp [hzero]
    have hhalf : (finite s r hr).value ≤ 1 / 2000000 ↔ 2 * (unitsAt r * 10 ^ 6) ≤ unitsPerOne := by
      have scaled : unitsAt r * 2000000 ≤ unitsPerOne ↔ 2 * (unitsAt r * 10 ^ 6) ≤ unitsPerOne := by
        omega
      rw [value, hunits, div_le_div_iff₀ units_cast_pos (by decide), one_mul, ← scaled]
      exact_mod_cast Iff.rfl
    rw [hhalf, ← roundHalfEven_eq_zero_iff unitsPerOne_pos, roundedPlaces?, Option.some_inj]
    exact ⟨fun h => ⟨rfl, h⟩, And.right⟩
  | infinity s => simp [roundedPlaces?, isFinite]
  | nan => simp [roundedPlaces?, isFinite]

end ClipRender.Binary64
