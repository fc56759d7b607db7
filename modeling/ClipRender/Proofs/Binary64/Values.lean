import ClipRender.Binary64.Arithmetic
import ClipRender.Proofs.Binary64.Ranks
import Mathlib.Algebra.Order.Field.Rat
import Mathlib.Data.Rat.Cast.Order
import Mathlib.Tactic.Positivity

set_option autoImplicit false

/-!
Numbers by their exact values. Comparison is comparison of values, whole numbers of at most 53 bits
are what they say, and the difference of two numbers that differ is never rounded to zero.
-/

namespace ClipRender.Binary64

def value (x : Binary64) : ℚ := x.signedUnits / unitsPerOne

theorem unitsPerOne_pos : 0 < unitsPerOne := by
  rw [unitsPerOne_eq]
  generalize 1074 = k
  exact Nat.two_pow_pos k

theorem units_cast_pos : (0 : ℚ) < unitsPerOne := by exact_mod_cast unitsPerOne_pos

theorem value_lt_iff {x y : Binary64} : x.value < y.value ↔ x.signedUnits < y.signedUnits := by
  unfold value
  rw [div_lt_div_iff_of_pos_right units_cast_pos]
  exact_mod_cast Iff.rfl

theorem value_nonneg_iff {x : Binary64} : 0 ≤ x.value ↔ 0 ≤ x.signedUnits := by
  unfold value
  rw [le_div_iff₀ units_cast_pos, zero_mul]
  exact_mod_cast Iff.rfl

theorem value_pos_iff {x : Binary64} : 0 < x.value ↔ 0 < x.signedUnits := by
  unfold value
  rw [div_pos_iff_of_pos_right units_cast_pos]
  exact_mod_cast Iff.rfl

theorem sign_of_pos {s : Bool} {r : Nat} {hr : r < rankLimit}
    (h : 0 < (finite s r hr).signedUnits) : s = false := by
  cases s with
  | false => rfl
  | true =>
    simp only [signedUnits, if_true] at h
    omega

theorem signedUnits_lt_iff {s t : Bool} {r k : Nat} {hr : r < rankLimit} {hk : k < rankLimit} :
    (finite s r hr).signedUnits < (finite t k hk).signedUnits
      ↔ (if s then -(r : Int) else r) < (if t then -(k : Int) else k) := by
  have order : ∀ a b, unitsAt a < unitsAt b ↔ a < b := fun a b => unitsAt_strictMono.lt_iff_lt
  have hrk := order r k
  have hkr := order k r
  have hr0 := order 0 r
  have hk0 := order 0 k
  rw [unitsAt_zero] at hr0 hk0
  cases s <;> cases t <;> simp only [signedUnits, if_true, Bool.false_eq_true, if_false] <;> omega

section Order

variable {x y : Binary64} (hx : x.isFinite = true) (hy : y.isFinite = true)

include hx hy

theorem lt_iff : lt x y = true ↔ x.value < y.value := by
  rw [value_lt_iff]
  cases x with
  | finite s r hr =>
    cases y with
    | finite t k hk => exact decide_eq_true_iff.trans signedUnits_lt_iff.symm
    | infinity t => cases hy
    | nan => cases hy
  | infinity s => cases hx
  | nan => cases hx

theorem le_iff : le x y = true ↔ x.value ≤ y.value := by
  have opposite : le x y = !lt y x := by
    cases x with
    | finite s r hr =>
      cases y with
      | finite t k hk =>
        rw [le, lt, compare, compare, ordinal?, ordinal?, ← decide_not]
        exact decide_eq_decide.mpr not_lt.symm
      | infinity t => cases hy
      | nan => cases hy
    | infinity s => cases hx
    | nan => cases hx
  rw [opposite, Bool.not_eq_true', ← Bool.not_eq_true, lt_iff hy hx, not_lt]

theorem eq_iff : eq x y = true ↔ x.value = y.value := by
  have both : eq x y = (le x y && le y x) := by
    cases x with
    | finite s r hr =>
      cases y with
      | finite t k hk =>
        simp only [eq, le, compare, ordinal?, ← Bool.decide_and, decide_eq_decide]
        omega
      | infinity t => cases hy
      | nan => cases hy
    | infinity s => cases hx
    | nan => cases hx
  rw [both, Bool.and_eq_true, le_iff hx hy, le_iff hy hx]
  exact le_antisymm_iff.symm

end Order

theorem ofUnits_exact (negative : Bool) {den : Nat} (hden : 0 < den) (r : Nat) :
    ofUnits negative (unitsAt r * den) den = ofRank negative r := by
  rw [ofUnits, nearestRank_unitsAt hden]

/-- A whole number of at most 53 bits stands at the rank of its magnitude. -/
theorem exists_ofInt {n : Int} (hn : n.natAbs ≤ 2 ^ 53) :
    ∃ r h, ofInt n = .finite (n < 0) r h ∧ unitsAt r = n.natAbs * unitsPerOne := by
  obtain ⟨r, hr⟩ := exists_rank n.natAbs 1074 hn
  rw [← unitsPerOne_eq] at hr
  have hlimit : r < rankLimit := by
    apply rank_lt_limit (by decide : 53 < 1024)
    rw [hr]
    exact Nat.mul_le_mul_right _ hn
  refine ⟨r, hlimit, ?_, hr⟩
  have rounded := ofUnits_exact (n < 0) Nat.one_pos r
  rw [Nat.mul_one, hr] at rounded
  rw [ofInt, rounded, ofRank, dif_pos hlimit]

section Whole

variable {n : Int} (hn : n.natAbs ≤ 2 ^ 53)

include hn

theorem isFinite_ofInt : (ofInt n).isFinite = true := by
  obtain ⟨r, h, hfinite, -⟩ := exists_ofInt hn
  rw [hfinite]
  rfl

theorem value_ofInt : (ofInt n).value = n := by
  obtain ⟨r, h, hfinite, hunits⟩ := exists_ofInt hn
  have hsigned : (ofInt n).signedUnits = n * unitsPerOne := by
    rw [hfinite, signedUnits, hunits]
    generalize unitsPerOne = one
    push_cast
    by_cases hneg : n < 0
    · simp [hneg, abs_of_neg hneg]
    · simp [hneg, abs_of_nonneg (not_lt.mp hneg)]
  rw [value, hsigned]
  push_cast
  exact mul_div_cancel_right₀ _ units_cast_pos.ne'

end Whole

@[simp] theorem signedUnits_neg (x : Binary64) : (-x).signedUnits = -x.signedUnits := by
  change (neg x).signedUnits = _
  cases x with
  | finite s r h => cases s <;> simp [signedUnits, neg]
  | infinity s => rfl
  | nan => rfl

@[simp] theorem isFinite_neg (x : Binary64) : (-x).isFinite = x.isFinite := by
  change (neg x).isFinite = _
  cases x <;> rfl

theorem add_eq {x y : Binary64} (hx : x.isFinite = true) (hy : y.isFinite = true)
    (hsum : x.signedUnits + y.signedUnits ≠ 0) :
    x + y = ofUnits (x.signedUnits + y.signedUnits < 0)
      (x.signedUnits + y.signedUnits).natAbs 1 := by
  change add x y = _
  cases x with
  | finite s r hr =>
    cases y with
    | finite t k hk => simp [add, hsum]
    | infinity t => cases hy
    | nan => cases hy
  | infinity s => cases hx
  | nan => cases hx

/-- What is left of a number when a lesser one is taken away, neither of them negative, is finite
and not zero. -/
theorem sub_of_lt {x y : Binary64} (hx : x.isFinite = true) (hy : y.isFinite = true)
    (hnonneg : 0 ≤ y.value) (hlt : y.value < x.value) :
    (x - y).isFinite = true ∧ 0 < (x - y).value := by
  rw [value_nonneg_iff] at hnonneg
  rw [value_lt_iff] at hlt
  have hsum : x.signedUnits + (-y).signedUnits = x.signedUnits - y.signedUnits := by
    rw [signedUnits_neg, sub_eq_add_neg]
  have hdiff : x - y
      = ofUnits false (x.signedUnits - y.signedUnits).natAbs 1 := by
    have hadd := add_eq hx ((isFinite_neg y).trans hy) (by omega)
    rw [hsum, decide_eq_false (by omega)] at hadd
    exact hadd
  generalize y.signedUnits = d at hnonneg hlt hdiff
  cases x with
  | finite s r hr =>
    -- the difference is at least one unit and at most as much as there was
    obtain rfl : s = false := sign_of_pos (hnonneg.trans_lt hlt)
    have hone : unitsAt 1 = 1 := by decide
    simp only [signedUnits, Bool.false_eq_true, if_false] at hlt hdiff
    have hmost : nearestRank ((unitsAt r : Int) - d).natAbs 1 ≤ r :=
      nearestRank_le Nat.one_pos (by omega)
    have hleast : 1 ≤ nearestRank ((unitsAt r : Int) - d).natAbs 1 :=
      le_nearestRank Nat.one_pos (by omega)
    rw [hdiff, ofUnits, ofRank, dif_pos (hmost.trans_lt hr), value_pos_iff]
    refine ⟨rfl, ?_⟩
    have hpos := unitsAt_strictMono.monotone hleast
    simp only [signedUnits, Bool.false_eq_true, if_false]
    omega
  | infinity s => cases hx
  | nan => cases hx

end ClipRender.Binary64
