import ClipRender.Proofs.Binary64.Nearness
import ClipRender.Proofs.Binary64.Overflow

set_option autoImplicit false

/-!
Reciprocals of positive numbers. They are finite for all numbers but the least ones. As long as the
number is not so great that steps are coarse around its reciprocal, the result is as near to the
exact one as any rounded number; past that it is small itself.
-/

namespace ClipRender.Binary64

variable {x : Binary64} {num den r : Nat}

theorem ofUnits_le (hden : 0 < den) (h : num ≤ unitsAt r * den)
    (hfinite : (ofUnits false num den).isFinite = true) :
    (ofUnits false num den).value ≤ unitsAt r / unitsPerOne := by
  have magnitude := unitsAt_strictMono.monotone (nearestRank_le hden h)
  rw [value_ofUnits hfinite, signFactor, if_neg Bool.false_ne_true, one_mul,
    div_le_div_iff_of_pos_right units_cast_pos]
  exact_mod_cast magnitude

theorem unitsAt_pos (hr : 0 < r) : 0 < unitsAt r := by
  have hless := unitsAt_strictMono hr
  rwa [unitsAt_zero] at hless

theorem unitsAt_last : unitsAt (rankLimit - 1) = (2 ^ 53 - 1) * 2 ^ 2045 := by
  have split : rankLimit - 1 = 2045 * blockSize + (2 * blockSize - 1) := by decide
  have size : 2 * blockSize - 1 = 2 ^ 53 - 1 := by decide
  rw [split, unitsAt_window (.inr (by decide)) (by decide), size]

theorem power_units {a b : Nat} (h : a + b = 1074) : 2 ^ a * 2 ^ b = unitsPerOne := by
  have split : ∀ c, a + b = c → 2 ^ a * 2 ^ b = 2 ^ c := fun c hc => hc ▸ (Nat.pow_add 2 a b).symm
  exact (split 1074 h).trans unitsPerOne_eq.symm

section Positive

variable (hx : x.isFinite = true) (hpos : 0 < x.value)

include hx hpos

/-- Only the reciprocals of the least numbers, which are below `2 ^ -1024` or equal to it, are
beyond the finite numbers. -/
theorem isFinite_one_div_iff : (one / x).isFinite = true ↔ 1 / 2 ^ 1024 < x.value := by
  obtain ⟨r, hr, rfl, hr0, hvalue⟩ := exists_rank_of_pos hx hpos
  have hunits := unitsAt_pos hr0
  have scale : (1 : ℚ) / 2 ^ 1024 < unitsAt r / unitsPerOne ↔ 2 ^ 50 < unitsAt r := by
    have hsplit := power_units (show 1024 + 50 = 1074 from rfl)
    generalize 1024 = a at hsplit
    rw [← hsplit, div_lt_div_iff₀ (by positivity) (by positivity), one_mul, Nat.cast_mul,
      Nat.cast_pow, Nat.cast_ofNat, mul_comm, mul_lt_mul_iff_left₀ (by positivity)]
    exact_mod_cast Iff.rfl
  have square : ∀ a b, a + a = 103 + b → 2 ^ a * 2 ^ a = 2 ^ 103 * 2 ^ b := by
    intro a b hsum
    rw [← Nat.pow_add, ← Nat.pow_add, hsum]
  rw [hvalue, scale, one_div_finite hr hr0, unitsPerOne_eq, square 1074 2045 rfl]
  constructor
  · contrapose!
    intro hsmall
    have beyond : unitsAt rankLimit * unitsAt r ≤ 2 ^ 103 * 2 ^ 2045 := by
      have double : ∀ a b, b = a + 1 → 2 ^ b = 2 ^ a * 2 := fun a b h => h ▸ Nat.pow_succ 2 a
      rw [unitsAt_rankLimit, blockSize_eq, double 2045 2046 rfl]
      generalize 2 ^ 2045 = top
      calc 2 ^ 52 * (top * 2) * unitsAt r ≤ 2 ^ 52 * (top * 2) * 2 ^ 50 :=
            Nat.mul_le_mul_left _ hsmall
        _ = 2 ^ 103 * top := by ring
    rw [ofUnits, ofRank, dif_neg (not_lt.mpr (le_nearestRank hunits beyond))]
    decide
  · intro hlarge
    refine isFinite_ofUnits false hunits (by decide : rankLimit - 1 < rankLimit) ?_
    rw [unitsAt_last]
    generalize 2 ^ 2045 = top
    calc 2 ^ 103 * top ≤ (2 ^ 53 - 1) * (2 ^ 50 + 1) * top := Nat.mul_le_mul_right _ (by decide)
      _ ≤ (2 ^ 53 - 1) * unitsAt r * top := by
        exact Nat.mul_le_mul_right _ (Nat.mul_le_mul_left _ hlarge)
      _ = (2 ^ 53 - 1) * top * unitsAt r := by ring

theorem one_div_le {a : Nat} (ha : a ≤ 1074) (hlarge : 2 ^ a ≤ x.value)
    (hfinite : (one / x).isFinite = true) : (one / x).value ≤ 1 / 2 ^ a := by
  obtain ⟨r, hr, rfl, hr0, hvalue⟩ := exists_rank_of_pos hx hpos
  have hsplit := power_units (Nat.add_sub_cancel' ha)
  obtain ⟨k, hk⟩ := exists_rank 1 (1074 - a) (by decide)
  generalize 1074 - a = b at hsplit hk
  have enough : unitsPerOne * unitsPerOne ≤ unitsAt k * unitsAt r := by
    have hunits : 2 ^ a * unitsPerOne ≤ unitsAt r := by
      rw [hvalue, le_div_iff₀ units_cast_pos] at hlarge
      exact_mod_cast hlarge
    calc unitsPerOne * unitsPerOne = 2 ^ b * (2 ^ a * unitsPerOne) := by
          rw [← Nat.mul_assoc, Nat.mul_comm (2 ^ b), hsplit]
      _ ≤ unitsAt k * unitsAt r := by
        rw [hk, Nat.one_mul]
        exact Nat.mul_le_mul_left _ hunits
  have same : (unitsAt k : ℚ) / unitsPerOne = 1 / 2 ^ a := by
    rw [hk, ← hsplit, div_eq_div_iff (by positivity) (by positivity)]
    push_cast
    ring
  rw [one_div_finite hr hr0] at hfinite ⊢
  rw [← same]
  exact ofUnits_le (unitsAt_pos hr0) enough hfinite

/-- There are steps to round to as long as the number is below `2 ^ 1022`. -/
theorem one_div_near (hless : x.value < 2 ^ 1022) (hfinite : (one / x).isFinite = true) :
    |(one / x).value - 1 / x.value| ≤ 1 / x.value / 2 ^ 53 := by
  obtain ⟨r, hr, rfl, hr0, hvalue⟩ := exists_rank_of_pos hx hpos
  have hunits := unitsAt_pos hr0
  have fine : Fine (unitsPerOne * unitsPerOne) (unitsAt r) := by
    have hsplit := power_units (show 1022 + 52 = 1074 from rfl)
    generalize 1022 = a at hless hsplit
    have hless : unitsAt r ≤ 2 ^ a * unitsPerOne := by
      rw [hvalue, div_lt_iff₀ units_cast_pos] at hless
      exact_mod_cast hless.le
    refine .inr ?_
    calc blockSize * unitsAt r ≤ blockSize * (2 ^ a * unitsPerOne) := Nat.mul_le_mul_left _ hless
      _ = unitsPerOne * unitsPerOne := by
        rw [blockSize_eq, ← Nat.mul_assoc, Nat.mul_comm (2 ^ 52), hsplit]
  have exact : ((unitsPerOne * unitsPerOne : Nat) : ℚ) / unitsAt r / unitsPerOne
      = 1 / (unitsAt r / unitsPerOne) := by
    have hone := units_cast_pos.ne'
    have hmagnitude : (unitsAt r : ℚ) ≠ 0 := by exact_mod_cast hunits.ne'
    rw [Nat.cast_mul]
    field_simp
  rw [one_div_finite hr hr0] at hfinite ⊢
  have near := ofUnits_near hunits fine hfinite
  rw [exact, signFactor, if_neg Bool.false_ne_true, one_mul] at near
  rw [hvalue]
  exact near

end Positive

end ClipRender.Binary64
