import ClipRender.Proofs.Binary64.Nearness

set_option autoImplicit false

/-!
The nearest whole number of a rational one, a half going to the even neighbour. It is told by
distance and parity alone, so that there is one for each number and they are in the order of the
numbers.
-/

namespace ClipRender

/-- No whole number is nearer, and of two that are as near this is the even one. -/
def NearestEven (q : ℚ) (n : ℤ) : Prop := |q - n| ≤ 1 / 2 ∧ (|q - n| = 1 / 2 → Even n)

namespace NearestEven

variable {q r : ℚ} {n m : ℤ}

theorem near (h : NearestEven q n) : |(n : ℚ) - q| ≤ 1 / 2 := abs_sub_comm q n ▸ h.1

theorem quotient_near {k : ℚ} (hk : 0 < k) (h : NearestEven (q * k) n) :
    |n / k - q| ≤ 1 / 2 / k := by
  have hscale : n / k - q = (n - q * k) / k := by rw [sub_div, mul_div_cancel_right₀ _ hk.ne']
  rw [hscale, abs_div, abs_of_pos hk]
  exact div_le_div_of_nonneg_right h.near hk.le

theorem mono (hn : NearestEven q n) (hm : NearestEven r m) (hle : q ≤ r) : n ≤ m := by
  by_contra hless
  have hnext : m + 1 ≤ n := by omega
  have hnext : (m : ℚ) + 1 ≤ n := by exact_mod_cast hnext
  obtain ⟨hlow, -⟩ := abs_le.mp hn.1
  obtain ⟨-, hhigh⟩ := abs_le.mp hm.1
  -- both numbers are halfway between two neighbours, which cannot both be even
  have hhalf : q - n = -(1 / 2) := by linarith
  have hother : r - m = 1 / 2 := by linarith
  have hneven : Even n := hn.2 (by rw [hhalf]; norm_num)
  have hmeven : Even m := hm.2 (by rw [hother]; norm_num)
  have hsame : (n : ℚ) = m + 1 := by linarith
  have hsame : n = m + 1 := by exact_mod_cast hsame
  rw [hsame, Int.even_add_one] at hneven
  exact hneven hmeven

theorem unique (hn : NearestEven q n) (hm : NearestEven q m) : n = m :=
  le_antisymm (hn.mono hm le_rfl) (hm.mono hn le_rfl)

theorem neg (h : NearestEven q n) : NearestEven (-q) (-n) := by
  have hsame : |-q - (-n : ℤ)| = |q - n| := by
    rw [Int.cast_neg, ← neg_sub_neg, sub_neg_eq_add, neg_neg, abs_sub_comm]
    ring_nf
  rw [NearestEven, hsame]
  exact ⟨h.1, fun hhalf => (h.2 hhalf).neg⟩

theorem of_whole (n : ℤ) : NearestEven n n := by
  rw [NearestEven, sub_self, abs_zero]
  norm_num

end NearestEven

namespace Binary64

theorem roundHalfEven_nearest (num : Nat) {den : Nat} (hden : 0 < den) :
    NearestEven (num / den) (roundHalfEven num den) := by
  have hpos : (0 : ℚ) < den := by exact_mod_cast hden
  have hsplit : (num : ℚ) = den * (num / den : Nat) + (num % den : Nat) := by
    exact_mod_cast (Nat.div_add_mod num den).symm
  have quotient : (num : ℚ) / den = (num / den : Nat) + ((num % den : Nat) : ℚ) / den := by
    rw [hsplit, add_div, mul_div_cancel_left₀ _ hpos.ne']
  have half : ((num % den : Nat) : ℚ) / den = 1 / 2 ↔ 2 * (num % den) = den := by
    rw [div_eq_div_iff hpos.ne' two_ne_zero, one_mul, mul_comm]
    exact_mod_cast Iff.rfl
  have below : 2 * (num % den) ≤ den → ((num % den : Nat) : ℚ) / den ≤ 1 / 2 := by
    intro hle
    rw [div_le_div_iff₀ hpos two_pos, one_mul, mul_comm]
    exact_mod_cast hle
  have above : den ≤ 2 * (num % den) → 1 / 2 ≤ ((num % den : Nat) : ℚ) / den := by
    intro hle
    rw [div_le_div_iff₀ two_pos hpos, one_mul, mul_comm]
    exact_mod_cast hle
  have hnonneg : (0 : ℚ) ≤ ((num % den : Nat) : ℚ) / den := by positivity
  have hless : ((num % den : Nat) : ℚ) / den < 1 := by
    rw [div_lt_one hpos]
    exact_mod_cast Nat.mod_lt num hden
  rw [quotient, roundHalfEven]
  generalize ((num % den : Nat) : ℚ) / den = rest at half below above hnonneg hless
  split
  · next hdown =>
    have hdist : |((num / den : Nat) : ℚ) + rest - ((num / den : Nat) : ℤ)| = rest := by
      rw [Int.cast_natCast, add_sub_cancel_left, abs_of_nonneg hnonneg]
    rw [NearestEven, hdist]
    refine ⟨below (by omega), fun hhalf => ?_⟩
    have heven : num / den % 2 = 0 := by
      rw [half] at hhalf
      omega
    exact_mod_cast Nat.even_iff.mpr heven
  · next hup =>
    have hdist : |((num / den : Nat) : ℚ) + rest - ((num / den + 1 : Nat) : ℤ)| = 1 - rest := by
      rw [Int.cast_natCast, Nat.cast_add_one, add_sub_add_left_eq_sub, abs_sub_comm,
        abs_of_nonneg (sub_nonneg.mpr hless.le)]
    have hmore := above (by omega)
    rw [NearestEven, hdist]
    refine ⟨by linarith, fun hhalf => ?_⟩
    have hodd : (num / den + 1) % 2 = 0 := by
      have hrest : rest = 1 / 2 := by linarith
      rw [half] at hrest
      omega
    exact_mod_cast Nat.even_iff.mpr hodd

variable {x : Binary64}

theorem finite_nearest (negative : Bool) {r : Nat} (hr : r < rankLimit) (k : Nat) :
    NearestEven ((finite negative r hr).value * k)
      (if negative then -(roundHalfEven (unitsAt r * k) unitsPerOne : ℤ)
        else roundHalfEven (unitsAt r * k) unitsPerOne) := by
  have magnitude := roundHalfEven_nearest (unitsAt r * k) unitsPerOne_pos
  have exact : ((unitsAt r * k : Nat) : ℚ) / unitsPerOne = unitsAt r / unitsPerOne * k := by
    rw [Nat.cast_mul, mul_div_right_comm]
  rw [exact] at magnitude
  rw [value_finite, mul_assoc]
  cases negative with
  | false => rwa [signFactor, if_neg Bool.false_ne_true, if_neg Bool.false_ne_true, one_mul]
  | true =>
    rw [signFactor, if_pos rfl, if_pos rfl, neg_one_mul]
    exact magnitude.neg

theorem round_nearest {k : ℤ} (h : x.round = .ok k) : NearestEven x.value k := by
  cases x with
  | finite s r hr =>
    have nearest := finite_nearest s hr 1
    rw [Nat.cast_one, mul_one, Nat.mul_one] at nearest
    rwa [← Except.ok.inj h]
  | infinity s => cases h
  | nan => cases h

/-- The number nearest to what is left of a number after rounding at so many places. -/
def roundAt (places : Nat) : Binary64 → Binary64
  | .finite negative rank _ =>
    ofUnits negative (roundHalfEven (unitsAt rank * 10 ^ places) unitsPerOne * unitsPerOne)
      (10 ^ places)
  | x => x

/-- Rounding once more does not make a zero of what the places keep. -/
theorem roundAt_eq_zero_iff {places : Nat} (hplaces : 10 ^ places ≤ unitsPerOne) :
    eq (x.roundAt places) zero = true ↔ x.roundedPlaces? places = some 0 := by
  cases x with
  | finite s r hr =>
    have hden : 0 < 10 ^ places := Nat.pow_pos (by decide)
    rw [roundAt, roundedPlaces?, Nat.pow_eq, Option.some_inj]
    generalize roundHalfEven (unitsAt r * 10 ^ places) unitsPerOne = n
    rcases Nat.eq_zero_or_pos n with rfl | hn
    · have exact := ofUnits_exact s hden 0
      rw [unitsAt_zero, Nat.zero_mul] at exact
      rw [Nat.zero_mul, exact]
      cases s <;> decide
    · have one : unitsAt 1 = 1 := by decide
      have hrank : 1 ≤ nearestRank (n * unitsPerOne) (10 ^ places) := by
        refine le_nearestRank hden ?_
        rw [one, Nat.one_mul]
        exact hplaces.trans (Nat.le_mul_of_pos_left _ hn)
      rw [ofUnits, ofRank]
      refine iff_of_false ?_ hn.ne'
      split
      · simp only [eq, compare, ordinal?, zero, signedZero]
        cases s <;> simp <;> omega
      · cases s <;> decide
  | infinity s =>
    simp only [roundAt, roundedPlaces?]
    cases s <;> decide
  | nan =>
    simp only [roundAt, roundedPlaces?]
    decide

end Binary64

end ClipRender
