import ClipRender.Binary64.Basic
import Mathlib.Data.Nat.Log
import Mathlib.Order.Monotone.Basic
import Mathlib.Tactic.Ring

set_option autoImplicit false

/-!
Ranks and magnitudes. Magnitudes grow with the rank, a whole number of at most 53 bits has a rank
whatever power of two it is multiplied by, and rounding never passes a magnitude that has a rank: a
quotient on one side of it is rounded to a rank on the same side.
-/

namespace ClipRender.Binary64

theorem blockSize_eq : blockSize = 2 ^ 52 := rfl

theorem unitsPerOne_eq : unitsPerOne = 2 ^ 1074 := Nat.pow_eq

theorem blockSize_pos : 0 < blockSize := by decide

/-- Two blocks at a time have one width of steps: the magnitudes there are `m * 2 ^ b`. -/
theorem unitsAt_window {b m : Nat} (hlow : b = 0 ∨ blockSize ≤ m) (hhigh : m ≤ 2 * blockSize) :
    unitsAt (b * blockSize + m) = m * 2 ^ b := by
  have hpos := blockSize_pos
  rcases Nat.lt_or_ge m blockSize with hm | hm
  · obtain rfl : b = 0 := by omega
    rw [unitsAt, Nat.zero_mul, Nat.zero_add, Nat.div_eq_of_lt hm]
    simp
  · rcases Nat.eq_or_lt_of_le hhigh with rfl | hlt
    · have hdiv : (b * blockSize + 2 * blockSize) / blockSize = b + 2 := by
        rw [← Nat.add_mul, Nat.mul_div_cancel _ hpos]
      have hmod : (b * blockSize + 2 * blockSize) % blockSize = 0 := by
        rw [← Nat.add_mul, Nat.mul_mod_left]
      simp only [unitsAt, hdiv, hmod, Nat.pow_eq]
      rw [if_neg (by omega), show b + 2 - 1 = b + 1 by omega, Nat.pow_succ]
      ring
    · obtain ⟨j, rfl⟩ := Nat.exists_eq_add_of_le hm
      have hj : j < blockSize := by omega
      have split : b * blockSize + (blockSize + j) = j + (b + 1) * blockSize := by ring
      have hdiv : (j + (b + 1) * blockSize) / blockSize = b + 1 := by
        rw [Nat.add_mul_div_right _ _ hpos, Nat.div_eq_of_lt hj, Nat.zero_add]
      have hmod : (j + (b + 1) * blockSize) % blockSize = j := by
        rw [Nat.add_mul_mod_self_right, Nat.mod_eq_of_lt hj]
      rw [split, unitsAt, hdiv, hmod]
      simp

theorem exists_window (r : Nat) :
    ∃ b m, r = b * blockSize + m ∧ (b = 0 ∨ blockSize ≤ m) ∧ m < 2 * blockSize := by
  have hpos := blockSize_pos
  rcases Nat.lt_or_ge r blockSize with hr | hr
  · exact ⟨0, r, by simp, .inl rfl, by omega⟩
  · have hblock : 0 < r / blockSize := Nat.div_pos hr hpos
    have hmod : r % blockSize < blockSize := Nat.mod_lt r hpos
    obtain ⟨b, hb⟩ := Nat.exists_eq_add_of_lt hblock
    have hsplit := Nat.div_add_mod' r blockSize
    refine ⟨b, blockSize + r % blockSize, ?_, .inr (Nat.le_add_right _ _), by omega⟩
    rw [hb] at hsplit
    rw [← hsplit]
    simp only [Nat.zero_add, Nat.mul_add_mod_self_right]
    rw [Nat.mod_mod]
    ring

@[simp] theorem unitsAt_zero : unitsAt 0 = 0 := by decide

theorem unitsAt_strictMono : StrictMono unitsAt := by
  apply strictMono_nat_of_lt_succ
  intro r
  obtain ⟨b, m, rfl, hlow, hhigh⟩ := exists_window r
  have next : unitsAt (b * blockSize + (m + 1)) = (m + 1) * 2 ^ b :=
    unitsAt_window (by omega) hhigh
  rw [unitsAt_window hlow hhigh.le, Nat.add_assoc, next]
  exact Nat.mul_lt_mul_of_pos_right (Nat.lt_succ_self m) (Nat.two_pow_pos b)

theorem unitsAt_rankLimit : unitsAt rankLimit = blockSize * 2 ^ 2046 := by
  have split : rankLimit = 2046 * blockSize + blockSize := by decide
  rw [split, unitsAt_window (.inr (Nat.le_refl _)) (by omega)]

theorem rank_lt_limit {r a : Nat} (ha : a < 1024) (h : unitsAt r ≤ 2 ^ a * unitsPerOne) :
    r < rankLimit := by
  have below : ∀ {one top : Nat}, a + one < 52 + top → 2 ^ a * 2 ^ one < blockSize * 2 ^ top := by
    intro one top hlt
    rw [blockSize_eq, ← Nat.pow_add, ← Nat.pow_add]
    exact Nat.pow_lt_pow_right (by decide) hlt
  rw [← unitsAt_strictMono.lt_iff_lt, unitsAt_rankLimit]
  rw [unitsPerOne_eq] at h
  exact h.trans_lt (below (by omega))

/-- Numbers of at most 53 bits have ranks, with any power of two. -/
theorem exists_rank (m k : Nat) (hm : m ≤ 2 ^ 53) : ∃ r, unitsAt r = m * 2 ^ k := by
  have hsize : 2 ^ 53 = 2 * blockSize := by decide
  induction k generalizing m with
  | zero => exact ⟨0 * blockSize + m, unitsAt_window (.inl rfl) (hsize ▸ hm)⟩
  | succ k ih =>
    rcases Nat.lt_or_ge blockSize m with hlarge | hsmall
    · exact ⟨_, unitsAt_window (.inr hlarge.le) (hsize ▸ hm)⟩
    · obtain ⟨r, hr⟩ := ih (2 * m) (by omega)
      exact ⟨r, by rw [hr, Nat.pow_succ]; ring⟩

section Rounding

variable {num den k : Nat}

theorem le_roundHalfEven (hden : 0 < den) (h : k * den ≤ num) : k ≤ roundHalfEven num den := by
  have hfloor : k ≤ num / den := (Nat.le_div_iff_mul_le hden).mpr h
  unfold roundHalfEven
  split <;> omega

theorem roundHalfEven_le (hden : 0 < den) (h : num ≤ k * den) : roundHalfEven num den ≤ k := by
  have hfloor : num / den ≤ k := Nat.div_le_of_le_mul (by rwa [Nat.mul_comm])
  unfold roundHalfEven
  split
  · exact hfloor
  · next hup =>
    rcases Nat.eq_or_lt_of_le hfloor with heq | hlt
    · -- the quotient is the whole number itself, so there is nothing to round
      have hsplit := Nat.div_add_mod' num den
      rw [heq] at hsplit
      have hmod : num % den = 0 := by omega
      simp [hmod, hden] at hup
    · exact hlt

variable (num den) in
/-- The window in which a quotient is rounded. -/
def windowOf : Nat := (num / den).log2 - 52

theorem nearestRank_eq :
    nearestRank num den
      = windowOf num den * blockSize + roundHalfEven num (den * 2 ^ windowOf num den) := rfl

variable (num) in
theorem windowOf_bounds (hden : 0 < den) :
    (windowOf num den = 0 ∨ blockSize * (den * 2 ^ windowOf num den) ≤ num) ∧
      num < 2 * blockSize * (den * 2 ^ windowOf num den) := by
  have hsize : 2 * blockSize = 2 ^ 53 := by decide
  by_cases hzero : num / den = 0
  · have hwindow : windowOf num den = 0 := by simp [windowOf, hzero]
    have hlt : num < den := (Nat.div_eq_zero_iff_lt hden).mp hzero
    refine ⟨.inl hwindow, ?_⟩
    rw [hwindow, Nat.pow_zero, Nat.mul_one]
    exact hlt.trans_le (Nat.le_mul_of_pos_left den (by decide))
  · have hpower : 2 ^ (num / den).log2 ≤ num / den := Nat.log2_self_le hzero
    have hnext : num / den < 2 ^ ((num / den).log2 + 1) := Nat.lt_log2_self
    have hsmall : (num / den).log2 + 1 ≤ 53 + windowOf num den := by
      unfold windowOf
      omega
    constructor
    · by_cases hwindow : windowOf num den = 0
      · exact .inl hwindow
      · right
        have hlog : (num / den).log2 = 52 + windowOf num den := by
          unfold windowOf at *
          omega
        rw [hlog, Nat.pow_add, Nat.le_div_iff_mul_le hden] at hpower
        calc blockSize * (den * 2 ^ windowOf num den)
            = 2 ^ 52 * 2 ^ windowOf num den * den := by rw [blockSize_eq]; ring
          _ ≤ num := hpower
    · have hlt : num / den < 2 ^ (53 + windowOf num den) :=
        hnext.trans_le (Nat.pow_le_pow_right (by decide) hsmall)
      rw [Nat.div_lt_iff_lt_mul hden, Nat.pow_add, ← hsize] at hlt
      calc num < 2 * blockSize * 2 ^ windowOf num den * den := hlt
        _ = 2 * blockSize * (den * 2 ^ windowOf num den) := by ring

theorem window_mul (m b den : Nat) : m * 2 ^ b * den = m * (den * 2 ^ b) := by ring

theorem le_nearestRank (hden : 0 < den) {r : Nat} (h : unitsAt r * den ≤ num) :
    r ≤ nearestRank num den := by
  obtain ⟨hlow, hhigh⟩ := windowOf_bounds num hden
  rw [nearestRank_eq]
  generalize windowOf num den = b at hlow hhigh ⊢
  have hstep : 0 < den * 2 ^ b := Nat.mul_pos hden (Nat.two_pow_pos b)
  have hceil : roundHalfEven num (den * 2 ^ b) ≤ 2 * blockSize := roundHalfEven_le hstep hhigh.le
  have hfloor : b = 0 ∨ blockSize ≤ roundHalfEven num (den * 2 ^ b) :=
    hlow.imp_right (le_roundHalfEven hstep)
  by_contra hpast
  rcases Nat.eq_or_lt_of_le hceil with hlast | hinside
  · have hunits : 2 * blockSize * 2 ^ b ≤ unitsAt r := by
      rw [← unitsAt_window (.inr (by omega)) (Nat.le_refl _)]
      exact unitsAt_strictMono.monotone (by omega)
    have hmore := Nat.mul_le_mul_right den hunits
    rw [window_mul] at hmore
    exact absurd (hmore.trans h) hhigh.not_ge
  · have hunits : (roundHalfEven num (den * 2 ^ b) + 1) * 2 ^ b ≤ unitsAt r := by
      rw [← unitsAt_window (by omega) (by omega)]
      exact unitsAt_strictMono.monotone (by omega)
    have hmore := Nat.mul_le_mul_right den hunits
    rw [window_mul] at hmore
    have habove := le_roundHalfEven hstep (hmore.trans h)
    omega

theorem nearestRank_le (hden : 0 < den) {r : Nat} (h : num ≤ unitsAt r * den) :
    nearestRank num den ≤ r := by
  obtain ⟨hlow, hhigh⟩ := windowOf_bounds num hden
  rw [nearestRank_eq]
  generalize windowOf num den = b at hlow hhigh ⊢
  have hstep : 0 < den * 2 ^ b := Nat.mul_pos hden (Nat.two_pow_pos b)
  have hceil : roundHalfEven num (den * 2 ^ b) ≤ 2 * blockSize := roundHalfEven_le hstep hhigh.le
  by_contra hpast
  by_cases hbottom : b ≠ 0 ∧ roundHalfEven num (den * 2 ^ b) ≤ blockSize
  · -- the rank lies below the window, and the quotient does not
    have hunits : unitsAt r < blockSize * 2 ^ b := by
      rw [← unitsAt_window (.inr (Nat.le_refl _)) (by omega)]
      exact unitsAt_strictMono (by omega)
    have hless := Nat.mul_lt_mul_of_pos_right hunits hden
    rw [window_mul] at hless
    omega
  · have hsome : roundHalfEven num (den * 2 ^ b) ≠ 0 := by
      rcases Nat.eq_zero_or_pos b with rfl | hb
      · rw [Nat.zero_mul] at hpast
        omega
      · omega
    obtain ⟨m, hm⟩ := Nat.exists_eq_succ_of_ne_zero hsome
    have hunits : unitsAt r ≤ m * 2 ^ b := by
      rw [← unitsAt_window (by omega) (by omega)]
      exact unitsAt_strictMono.monotone (by omega)
    have hless := Nat.mul_le_mul_right den hunits
    rw [window_mul] at hless
    have hbelow := roundHalfEven_le hstep (h.trans hless)
    omega

theorem nearestRank_unitsAt (hden : 0 < den) (r : Nat) : nearestRank (unitsAt r * den) den = r :=
  Nat.le_antisymm (nearestRank_le hden (Nat.le_refl _)) (le_nearestRank hden (Nat.le_refl _))

end Rounding

end ClipRender.Binary64
