import ClipRender.Proofs.Binary64.Reciprocals
import Mathlib.Tactic.LinearCombination

set_option autoImplicit false

/-!
How far a sum is from the exact one when its size is known. Up to a power of two no step is wider
than the last one before it, so rounding moves the sum by half of that step at most.
-/

namespace ClipRender.Binary64

variable {num den a n : Nat} {x y : Binary64}

theorem roundHalfEven_mul (k : Nat) (hden : 0 < den) : roundHalfEven (k * den) den = k := by
  rw [roundHalfEven, Nat.mul_mod_left, Nat.mul_div_cancel _ hden, if_pos (.inl hden)]

/-- Up to the end of a window, half of its step is the most that rounding moves a quotient. -/
theorem nearestRank_step (hden : 0 < den) {w : Nat} (h : num ≤ 2 ^ 53 * (den * 2 ^ w)) :
    2 * num ≤ 2 * (unitsAt (nearestRank num den) * den) + den * 2 ^ w ∧
      2 * (unitsAt (nearestRank num den) * den) ≤ 2 * num + den * 2 ^ w := by
  obtain ⟨hlow, -⟩ := windowOf_bounds num hden
  have hstep : 0 < den * 2 ^ windowOf num den := Nat.mul_pos hden (Nat.two_pow_pos _)
  rw [unitsAt_nearestRank num hden, window_mul]
  rcases Nat.lt_or_ge w (windowOf num den) with hpast | hinside
  · -- the quotient is where the next window begins, and there it is exact
    have hwide : den * 2 ^ w * 2 ≤ den * 2 ^ windowOf num den := by
      rw [Nat.mul_assoc, ← Nat.pow_succ]
      exact Nat.mul_le_mul_left _ (Nat.pow_le_pow_right two_pos hpast)
    have hlow := hlow.resolve_left (by omega)
    rw [blockSize_eq] at hlow
    have hexact : num = 2 ^ 52 * (den * 2 ^ windowOf num den) := by omega
    have rounded := roundHalfEven_mul (2 ^ 52) hstep
    rw [← hexact] at rounded
    rw [rounded, ← hexact]
    omega
  · have hnarrow : den * 2 ^ windowOf num den ≤ den * 2 ^ w :=
      Nat.mul_le_mul_left _ (Nat.pow_le_pow_right two_pos hinside)
    obtain ⟨hbelow, habove⟩ := roundHalfEven_near num hstep
    omega

theorem unitsAt_step {w : Nat} (h : num ≤ 2 ^ 53 * 2 ^ w) :
    |(unitsAt (nearestRank num 1) : ℚ) - num| ≤ 2 ^ w / 2 := by
  obtain ⟨hbelow, habove⟩ := nearestRank_step Nat.one_pos (h.trans_eq (by rw [Nat.one_mul]))
  rw [Nat.mul_one, Nat.one_mul] at hbelow habove
  have below : (2 : ℚ) * num ≤ 2 * unitsAt (nearestRank num 1) + 2 ^ w := by exact_mod_cast hbelow
  have above : (2 : ℚ) * unitsAt (nearestRank num 1) ≤ 2 * num + 2 ^ w := by exact_mod_cast habove
  rw [abs_le]
  constructor <;> linarith

theorem IsWhole.add_units (hx : IsWhole n x) (hy : y.isFinite = true) {k : Nat}
    (hsum : x.signedUnits + y.signedUnits = k) : x + y = ofUnits false k 1 := by
  by_cases hzero : k = 0
  · obtain ⟨r, hr, rfl, -⟩ := hx
    subst hzero
    cases y with
    | finite t b hb =>
      have made : finite false r hr + finite t b hb = signedZero (false && t) := by
        change add _ _ = _
        rw [add, hsum, if_pos Nat.cast_zero]
      have bottom := ofUnits_exact false Nat.one_pos 0
      rw [unitsAt_zero] at bottom
      rw [made]
      exact bottom.symm
    | infinity t => cases hy
    | nan => cases hy
  · have result := add_eq hx.isFinite hy (by omega)
    rwa [hsum, decide_eq_false (by omega), Int.natAbs_natCast] at result

theorem IsWhole.add_near (hx : IsWhole n x) (hy : y.isFinite = true) (ha : a < 1024)
    (hlow : 0 ≤ n + y.value) (hhigh : n + y.value ≤ 2 ^ a) :
    Sized false a (x + y) ∧ |(x + y).value - (n + y.value)| ≤ 2 ^ a / 2 ^ 54 := by
  have exact : n + y.value = ((x.signedUnits + y.signedUnits : Int) : ℚ) / unitsPerOne := by
    rw [← hx.value, Binary64.value, Binary64.value, ← add_div]
    push_cast
    rfl
  have hpos := units_cast_pos
  have hnonneg : 0 ≤ x.signedUnits + y.signedUnits := by
    rw [exact, le_div_iff₀ hpos, zero_mul] at hlow
    exact_mod_cast hlow
  obtain ⟨k, hk⟩ := Int.eq_ofNat_of_zero_le hnonneg
  rw [hk, Int.cast_natCast] at exact
  have hsize : k ≤ 2 ^ a * unitsPerOne := by
    rw [exact, div_le_iff₀ hpos] at hhigh
    exact_mod_cast hhigh
  have result := hx.add_units hy hk
  have sized : Sized false a (x + y) := by
    rw [result]
    exact sized_ofUnits Nat.one_pos ha (by rwa [Nat.mul_one])
  refine ⟨sized, ?_⟩
  have hfinite := sized.isFinite
  rw [result] at hfinite ⊢
  rw [value_ofUnits hfinite, exact, signFactor, if_neg Bool.false_ne_true, one_mul, ← sub_div,
    abs_div, abs_of_pos hpos, div_le_iff₀ hpos]
  -- there are `2 ^ 53` steps of this width up to the power
  have scaled : ∀ {last}, 2 ^ 53 * 2 ^ last = unitsPerOne →
      2 ^ 53 * 2 ^ (a + last) = 2 ^ a * unitsPerOne :=
    fun hlast => by rw [← hlast, Nat.pow_add, Nat.mul_left_comm]
  have hwidth := scaled (power_units (show 53 + 1021 = 1074 from rfl))
  have near := unitsAt_step (hsize.trans_eq hwidth.symm)
  have width : (2 : ℚ) ^ (a + 1021) / 2 = 2 ^ a / 2 ^ 54 * unitsPerOne := by
    have hwidth : (2 : ℚ) ^ 53 * 2 ^ (a + 1021) = 2 ^ a * unitsPerOne := by exact_mod_cast hwidth
    generalize (2 : ℚ) ^ (a + 1021) = step at hwidth ⊢
    linear_combination hwidth / 2 ^ 54
  rwa [width] at near

end ClipRender.Binary64
