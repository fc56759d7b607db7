import ClipRender.Proofs.Binary64.Rising
import Mathlib.Tactic.FieldSimp
import Mathlib.Tactic.Linarith

set_option autoImplicit false

/-!
How far a result is from the exact one. Rounding moves a quotient by at most half a step, and a step
is at most one part in `2 ^ 52` of what it rounds; sums have no steps finer than their operands, so
for them this holds down to zero. It follows that order and whole parts of quotients of small whole
numbers come out as they are.
-/

namespace ClipRender.Binary64

section Steps

variable {num den : Nat}

/-- At most half of the divisor is missing from the product, or too much in it. -/
theorem roundHalfEven_near (num : Nat) (hden : 0 < den) :
    2 * num ≤ 2 * (roundHalfEven num den * den) + den ∧
      2 * (roundHalfEven num den * den) ≤ 2 * num + den := by
  have hsplit := Nat.div_add_mod' num den
  have hmod := Nat.mod_lt num hden
  unfold roundHalfEven
  split
  · next hdown => omega
  · next hup =>
    rw [Nat.add_mul, Nat.one_mul]
    omega

theorem unitsAt_nearestRank (num : Nat) (hden : 0 < den) :
    unitsAt (nearestRank num den)
      = roundHalfEven num (den * 2 ^ windowOf num den) * 2 ^ windowOf num den := by
  obtain ⟨hlow, hhigh⟩ := windowOf_bounds num hden
  have hstep : 0 < den * 2 ^ windowOf num den := Nat.mul_pos hden (Nat.two_pow_pos _)
  rw [nearestRank_eq]
  exact unitsAt_window (hlow.imp_right (le_roundHalfEven hstep)) (roundHalfEven_le hstep hhigh.le)

/-- A whole number of units, or so many of them that there are steps to round to. -/
def Fine (num den : Nat) : Prop := den = 1 ∨ blockSize * den ≤ num

theorem nearestRank_near (hden : 0 < den) (hfine : Fine num den) :
    2 ^ 53 * num ≤ 2 ^ 53 * (unitsAt (nearestRank num den) * den) + num ∧
      2 ^ 53 * (unitsAt (nearestRank num den) * den) ≤ 2 ^ 53 * num + num := by
  obtain ⟨hlow, -⟩ := windowOf_bounds num hden
  have hstep : 0 < den * 2 ^ windowOf num den := Nat.mul_pos hden (Nat.two_pow_pos _)
  rw [blockSize_eq] at hlow
  rw [Fine, blockSize_eq] at hfine
  rw [unitsAt_nearestRank num hden, window_mul]
  obtain ⟨hbelow, habove⟩ := roundHalfEven_near num hstep
  by_cases hexact : den * 2 ^ windowOf num den = 1
  · rw [hexact] at hbelow habove ⊢
    omega
  · -- half a step against the whole quotient
    have hshare : 2 ^ 53 * (den * 2 ^ windowOf num den) ≤ 2 * num := by
      rcases hlow with hzero | hlarge
      · rw [hzero, Nat.pow_zero, Nat.mul_one] at hexact ⊢
        have hlarge := hfine.resolve_left hexact
        omega
      · omega
    omega

theorem unitsAt_near (hden : 0 < den) (hfine : Fine num den) :
    |(unitsAt (nearestRank num den) : ℚ) - num / den| ≤ num / den / 2 ^ 53 := by
  obtain ⟨hbelow, habove⟩ := nearestRank_near hden hfine
  generalize unitsAt (nearestRank num den) = u at hbelow habove
  have hpos : (0 : ℚ) < den := by exact_mod_cast hden
  have below : (2 : ℚ) ^ 53 * num ≤ 2 ^ 53 * (u * den) + num := by exact_mod_cast hbelow
  have above : (2 : ℚ) ^ 53 * (u * den) ≤ 2 ^ 53 * num + num := by exact_mod_cast habove
  have whole : (num : ℚ) = num / den * den := (div_mul_cancel₀ _ hpos.ne').symm
  generalize (num : ℚ) / den = q at whole ⊢
  rw [whole] at below above
  have below : q ≤ u + q / 2 ^ 53 := by
    refine le_of_mul_le_mul_right ?_ hpos
    linarith
  have above : u ≤ q + q / 2 ^ 53 := by
    refine le_of_mul_le_mul_right ?_ hpos
    linarith
  rw [abs_le]
  constructor <;> linarith

def signFactor (negative : Bool) : ℚ := if negative then -1 else 1

theorem abs_signFactor_mul (negative : Bool) (q : ℚ) : |signFactor negative * q| = |q| := by
  cases negative <;> simp [signFactor]

theorem value_finite (negative : Bool) {r : Nat} (hr : r < rankLimit) :
    (finite negative r hr).value = signFactor negative * (unitsAt r / unitsPerOne) := by
  rw [value, signedUnits]
  generalize (unitsPerOne : ℚ) = one
  cases negative <;> simp [signFactor, neg_div]

theorem value_ofUnits {negative : Bool} (hfinite : (ofUnits negative num den).isFinite = true) :
    (ofUnits negative num den).value
      = signFactor negative * (unitsAt (nearestRank num den) / unitsPerOne) := by
  rw [ofUnits, ofRank] at hfinite ⊢
  split at hfinite
  · next hlimit => rw [dif_pos hlimit, value_finite]
  · cases hfinite

/-- One rounding moves a number by one part in `2 ^ 53` at most. -/
theorem ofUnits_near {negative : Bool} (hden : 0 < den) (hfine : Fine num den)
    (hfinite : (ofUnits negative num den).isFinite = true) :
    |(ofUnits negative num den).value - signFactor negative * (num / den / unitsPerOne)|
      ≤ num / den / unitsPerOne / 2 ^ 53 := by
  have hunits := units_cast_pos
  rw [value_ofUnits hfinite, ← mul_sub, abs_signFactor_mul, ← sub_div, abs_div, abs_of_pos hunits,
    div_right_comm _ _ ((2 : ℚ) ^ 53), div_le_div_iff_of_pos_right hunits]
  exact unitsAt_near hden hfine

end Steps

section Operations

variable {x y z : Binary64} {n m : Nat}

theorem signFactor_natAbs (k : Int) : signFactor (k < 0) * (k.natAbs : ℚ) = k := by
  have habs : (k.natAbs : ℚ) = |(k : ℚ)| := by
    rw [Nat.cast_natAbs, Int.cast_abs]
  rw [habs, signFactor]
  by_cases hk : k < 0
  · have : (k : ℚ) < 0 := by exact_mod_cast hk
    simp [hk, abs_of_neg this]
  · have : (0 : ℚ) ≤ k := by exact_mod_cast not_lt.mp hk
    simp [hk, abs_of_nonneg this]

theorem add_near (hx : x.isFinite = true) (hy : y.isFinite = true)
    (hsum : (x + y).isFinite = true) :
    |(x + y).value - (x.value + y.value)| ≤ |x.value + y.value| / 2 ^ 53 := by
  have exact : x.value + y.value = ((x.signedUnits + y.signedUnits : Int) : ℚ) / unitsPerOne := by
    rw [value, value, ← add_div]
    push_cast
    rfl
  by_cases hzero : x.signedUnits + y.signedUnits = 0
  · obtain ⟨s, hresult⟩ := add_of_eq_zero hx hy hzero
    have hvalue : (signedZero s).value = 0 := by
      rw [signedZero, value_finite, unitsAt_zero, Nat.cast_zero, zero_div, mul_zero]
    rw [hresult, hvalue, exact, hzero, Int.cast_zero, zero_div, sub_zero, abs_zero, zero_div]
  · have hresult := add_eq hx hy hzero
    generalize x.signedUnits + y.signedUnits = k at exact hresult
    rw [hresult] at hsum ⊢
    have near := ofUnits_near Nat.one_pos (.inl rfl) hsum
    have magnitude : |(k : ℚ) / unitsPerOne| = k.natAbs / unitsPerOne := by
      rw [abs_div, abs_of_pos units_cast_pos, Nat.cast_natAbs, Int.cast_abs]
    rw [exact, magnitude]
    rwa [Nat.cast_one, div_one, ← mul_div_assoc, signFactor_natAbs] at near

theorem sub_near (hx : x.isFinite = true) (hy : y.isFinite = true)
    (hdiff : (x - y).isFinite = true) :
    |(x - y).value - (x.value - y.value)| ≤ |x.value - y.value| / 2 ^ 53 := by
  have opposite : (-y).value = -y.value := by
    rw [value, value, signedUnits_neg, Int.cast_neg, neg_div]
  have near := add_near hx ((isFinite_neg y).trans hy) hdiff
  rwa [opposite, ← sub_eq_add_neg] at near

theorem IsWhole.isFinite (h : IsWhole n x) : x.isFinite = true := by
  obtain ⟨r, hr, rfl, -⟩ := h
  rfl

theorem IsWhole.value (h : IsWhole n x) : x.value = n := by
  obtain ⟨r, hr, rfl, hunits⟩ := h
  rw [value_finite, hunits]
  push_cast
  rw [mul_div_cancel_right₀ _ units_cast_pos.ne']
  exact one_mul _

theorem finite_mul_whole (s : Bool) {r : Nat} (hr : r < rankLimit) (hy : IsWhole n y) :
    finite s r hr * y = ofUnits s (unitsAt r * n) 1 := by
  obtain ⟨k, hk, rfl, hunits⟩ := hy
  have same := nearestRank_scale unitsPerOne_pos (unitsAt r * n) 1
  rw [Nat.one_mul, Nat.mul_assoc] at same
  rw [finite_mul, Bool.bne_false, hunits, ofUnits, ofUnits, same]

theorem ordinal?_mul_whole (hx : x.isFinite = true) (hy : IsWhole n y) :
    (x * y).ordinal? = some (placeOf (x.signedUnits * n) 1) := by
  cases x with
  | finite s r hr =>
    rw [finite_mul_whole s hr hy]
    cases s with
    | false =>
      have place := ordinal?_ofUnits ((unitsAt r * n : Nat) : Int) 1
      rwa [decide_eq_false (by omega), Int.natAbs_natCast, Int.natCast_mul] at place
    | true =>
      have signed : (finite true r hr).signedUnits * n = -((unitsAt r * n : Nat) : Int) := by
        rw [signedUnits, if_pos rfl, Int.neg_mul, Int.natCast_mul]
      rw [signed]
      rcases Nat.eq_zero_or_pos (unitsAt r * n) with hzero | hpos
      · rw [hzero, Nat.cast_zero, neg_zero, placeOf_zero Nat.one_pos]
        decide
      · have place := ordinal?_ofUnits (-((unitsAt r * n : Nat) : Int)) 1
        rwa [decide_eq_true (by omega), Int.natAbs_neg, Int.natAbs_natCast] at place
  | infinity s => cases hx
  | nan => cases hx

theorem mul_whole_mono (hx : x.isFinite = true) (hz : z.isFinite = true) (hy : IsWhole n y)
    (h : le x z = true) : le (x * y) (z * y) = true := by
  refine le_of_ordinal (ordinal?_mul_whole hx hy) (ordinal?_mul_whole hz hy) ?_
  refine placeOf_mono Nat.one_pos ?_
  exact Int.mul_le_mul_of_nonneg_right (signedUnits_le hx hz h) (Int.natCast_nonneg n)

/-- The product with a whole number has no steps finer than the number. -/
theorem mul_near (hx : x.isFinite = true) (hy : IsWhole n y) (hproduct : (x * y).isFinite = true) :
    |(x * y).value - x.value * n| ≤ |x.value * n| / 2 ^ 53 := by
  cases x with
  | finite s r hr =>
    rw [finite_mul_whole s hr hy] at hproduct ⊢
    have near := ofUnits_near Nat.one_pos (.inl rfl) hproduct
    have exact : (finite s r hr).value * n
        = signFactor s * (((unitsAt r * n : Nat) : ℚ) / (1 : Nat) / unitsPerOne) := by
      rw [value_finite, Nat.cast_mul, Nat.cast_one, div_one, mul_assoc, div_mul_eq_mul_div]
    have nonneg : (0 : ℚ) ≤ ((unitsAt r * n : Nat) : ℚ) / (1 : Nat) / unitsPerOne :=
      div_nonneg (div_nonneg (Nat.cast_nonneg _) (Nat.cast_nonneg _)) units_cast_pos.le
    rw [exact, abs_signFactor_mul, abs_of_nonneg nonneg]
    exact near
  | infinity s => cases hx
  | nan => cases hx

theorem isFinite_of_round {k : Int} (h : x.round = .ok k) : x.isFinite = true := by
  cases x with
  | finite s r hr => rfl
  | infinity s => cases h
  | nan => cases h

theorem round_finite {r : Nat} (hr : r < rankLimit) :
    (finite false r hr).round = .ok (roundHalfEven (unitsAt r) unitsPerOne : Nat) := by
  rw [Binary64.round, toWhole, if_neg Bool.false_ne_true]

end Operations

section Quotients

variable {n m a b c d : Nat} {x y : Binary64}

theorem ofQuotient_eq (n m : Nat) : ofQuotient n m = ofUnits false (n * unitsPerOne) m := by
  rw [ofQuotient, decide_eq_false (by omega), decide_eq_false (by omega), Int.natAbs_natCast,
    Int.natAbs_natCast]
  rfl

theorem fine_whole (hn : 0 < n) (hm : m ≤ 2 ^ 53) : Fine (n * unitsPerOne) m := by
  have hunits : blockSize * 2 ^ 53 ≤ unitsPerOne := by
    rw [blockSize_eq, unitsPerOne_eq]
    generalize hone : 1074 = one
    rw [← Nat.pow_add]
    exact Nat.pow_le_pow_right (by decide) (by omega)
  refine .inr ?_
  calc blockSize * m ≤ blockSize * 2 ^ 53 := Nat.mul_le_mul_left _ hm
    _ ≤ unitsPerOne := hunits
    _ ≤ n * unitsPerOne := Nat.le_mul_of_pos_left _ hn

theorem isFinite_ofQuotient (hm : 0 < m) (hn : n ≤ 2 ^ 53) : (ofQuotient n m).isFinite = true := by
  have hsize : n * unitsPerOne ≤ 2 ^ 53 * unitsPerOne * m :=
    (Nat.mul_le_mul_right _ hn).trans (Nat.le_mul_of_pos_right _ hm)
  rw [ofQuotient_eq]
  exact (sized_ofUnits hm (by decide : 53 < 1024) hsize).isFinite

theorem ofQuotient_near (hn : 0 < n ∧ n ≤ 2 ^ 53) (hm : 0 < m ∧ m ≤ 2 ^ 53) :
    |(ofQuotient n m).value - n / m| ≤ n / m / 2 ^ 53 := by
  have hfinite := isFinite_ofQuotient hm.1 hn.2
  have exact : ((n * unitsPerOne : Nat) : ℚ) / m / unitsPerOne = n / m := by
    rw [Nat.cast_mul, div_right_comm, mul_div_cancel_right₀ _ units_cast_pos.ne']
  rw [ofQuotient_eq] at hfinite ⊢
  have near := ofUnits_near hm.1 (fine_whole hn.1 hm.2) hfinite
  rw [exact] at near
  rwa [signFactor, if_neg Bool.false_ne_true, one_mul] at near

theorem value_ofQuotient {r : Nat} (hm : 0 < m) (hr : r < rankLimit)
    (hunits : unitsAt r * m = n * unitsPerOne) : (ofQuotient n m).value = n / m := by
  rw [ofQuotient_eq, ← hunits, ofUnits_exact false hm, ofRank, dif_pos hr, value_finite, signFactor,
    if_neg Bool.false_ne_true, one_mul, div_eq_div_iff units_cast_pos.ne' (by positivity)]
  exact_mod_cast hunits

theorem nearestRank_cross (hb : 0 < b) (hd : 0 < d) (h : c * b ≤ a * d) :
    nearestRank c d ≤ nearestRank a b := by
  rw [← nearestRank_scale hb c d, ← nearestRank_scale hd a b, Nat.mul_comm d b]
  exact nearestRank_mono (Nat.mul_pos hb hd) h

/-- Of two different quotients the one that is less stays less, as long as their products across
have fewer bits than a number. -/
theorem lt_ofQuotient_iff (ha : 0 < a ∧ a ≤ 2 ^ 53) (hb : 0 < b ∧ b ≤ 2 ^ 53)
    (hc : 0 < c ∧ c ≤ 2 ^ 53) (hd : 0 < d ∧ d ≤ 2 ^ 53) (hcross : c * b ≤ 2 ^ 52) :
    lt (ofQuotient a b) (ofQuotient c d) = true ↔ a * d < c * b := by
  have hleft := isFinite_ofQuotient hb.1 ha.2
  have hright := isFinite_ofQuotient hd.1 hc.2
  rw [lt_iff hleft hright]
  constructor
  · contrapose!
    intro hle
    rw [ofQuotient_eq] at hleft hright ⊢
    rw [ofQuotient_eq, value_ofUnits hleft, value_ofUnits hright]
    have hrank := nearestRank_cross hb.1 hd.1 (a := a * unitsPerOne) (c := c * unitsPerOne) (by
      rw [Nat.mul_right_comm c, Nat.mul_right_comm a]
      exact Nat.mul_le_mul_right _ hle)
    have hmagnitude : (unitsAt (nearestRank (c * unitsPerOne) d) : ℚ)
        ≤ unitsAt (nearestRank (a * unitsPerOne) b) := by
      exact_mod_cast unitsAt_strictMono.monotone hrank
    rw [signFactor, if_neg Bool.false_ne_true, one_mul, one_mul]
    exact div_le_div_of_nonneg_right hmagnitude units_cast_pos.le
  · intro hlt
    have left := (abs_le.mp (ofQuotient_near ha hb)).2
    have right := (abs_le.mp (ofQuotient_near hc hd)).1
    have hb0 : (0 : ℚ) < b := by exact_mod_cast hb.1
    have hd0 : (0 : ℚ) < d := by exact_mod_cast hd.1
    -- what is between the quotients, against what the roundings can take from it
    have apart : (a : ℚ) * d + 1 ≤ c * b := by exact_mod_cast hlt
    have small : (c : ℚ) * b ≤ 2 ^ 52 := by exact_mod_cast hcross
    have gap : (a : ℚ) / b + a / b / 2 ^ 53 < c / d - c / d / 2 ^ 53 := by
      refine lt_of_mul_lt_mul_right ?_ (mul_pos hb0 hd0).le
      have leftCross : ((a : ℚ) / b + a / b / 2 ^ 53) * (b * d) = a * d + a * d / 2 ^ 53 := by
        field_simp
      have rightCross : ((c : ℚ) / d - c / d / 2 ^ 53) * (b * d) = c * b - c * b / 2 ^ 53 := by
        field_simp
      rw [leftCross, rightCross]
      linarith
    linarith

end Quotients

section Parts

/-- A number that is not negative, of which `n` is whole. -/
def HasPart (n : Nat) (x : Binary64) : Prop :=
  ∃ r h, x = .finite false r h ∧ unitsAt r / unitsPerOne = n

variable {n m : Nat} {x y : Binary64}

theorem IsWhole.hasPart (h : IsWhole n x) : HasPart n x := by
  obtain ⟨r, hr, rfl, hunits⟩ := h
  exact ⟨r, hr, rfl, by rw [hunits, Nat.mul_div_cancel _ unitsPerOne_pos]⟩

theorem HasPart.truncate (h : HasPart n x) : x.truncate = .ok n := by
  obtain ⟨r, hr, rfl, rfl⟩ := h
  rw [Binary64.truncate, toWhole]
  rfl

/-- The whole part of a quotient of whole numbers is not rounded away. -/
theorem IsWhole.hasPart_div (hx : IsWhole n x) (hy : IsWhole m y) (hn : 0 < n ∧ n < 2 ^ 53)
    (hm : 0 < m ∧ m ≤ 2 ^ 53) : HasPart (n / m) (x / y) := by
  obtain ⟨r, hr, hquotient, -⟩ := (hx.sized hn.2.le).div hy hm.1 (by decide : 53 < 1024)
  rw [hx.div hy hm.1, ofQuotient_eq, ofUnits, ofRank] at hquotient
  split at hquotient
  · next hlimit =>
    have hrank : nearestRank (n * unitsPerOne) m = r := by
      injection hquotient
    refine ⟨r, hr, ?_, ?_⟩
    · rw [hx.div hy hm.1, ofQuotient_eq, ofUnits, ofRank, dif_pos hlimit, hquotient]
    · have hunits := unitsPerOne_pos
      obtain ⟨-, habove⟩ := nearestRank_near hm.1 (fine_whole hn.1 hm.2)
      have hsplit := Nat.div_add_mod' n m
      have hmod := Nat.mod_lt n hm.1
      have hsmall : n / m ≤ 2 ^ 53 := (Nat.div_le_self n m).trans hn.2.le
      obtain ⟨k, hk⟩ := exists_rank (n / m) 1074 hsmall
      rw [← unitsPerOne_eq] at hk
      have hbelow : k ≤ r := by
        rw [← hrank]
        refine le_nearestRank hm.1 ?_
        rw [hk, Nat.mul_right_comm]
        exact Nat.mul_le_mul_right _ (Nat.div_mul_le_self n m)
      have hlow := unitsAt_strictMono.monotone hbelow
      rw [hrank] at habove
      rw [hk] at hlow
      generalize unitsAt r = u at habove hlow
      generalize n / m = q at hsplit hlow ⊢
      generalize unitsPerOne = one at hunits habove hlow ⊢
      refine Nat.div_eq_of_lt_le hlow ?_
      by_contra hpast
      rw [not_lt] at hpast
      -- the next whole number is further from the quotient than one rounding goes
      have hnext : n + 1 ≤ (q + 1) * m := by
        rw [Nat.add_mul, Nat.one_mul]
        omega
      have hmore : 2 ^ 53 * ((n + 1) * one) ≤ 2 ^ 53 * (n * one) + n * one := by
        refine le_trans (Nat.mul_le_mul_left _ ?_) habove
        calc (n + 1) * one ≤ (q + 1) * m * one := Nat.mul_le_mul_right _ hnext
          _ = (q + 1) * one * m := Nat.mul_right_comm _ _ _
          _ ≤ u * m := Nat.mul_le_mul_right _ hpast
      rw [Nat.add_mul, Nat.one_mul, Nat.mul_add] at hmore
      have hless : n * one < 2 ^ 53 * one := Nat.mul_lt_mul_of_pos_right hn.2 hunits
      omega
  · cases hquotient

theorem exists_rank_half (r : Nat) : (∃ k, unitsAt r = unitsAt k * 2) ∨ unitsAt r ≤ 2 ^ 53 := by
  obtain ⟨bits, power, hbits, hr⟩ := exists_bits r
  cases power with
  | zero =>
    rw [Nat.pow_zero, Nat.mul_one] at hr
    exact .inr (hr ▸ hbits)
  | succ power =>
    obtain ⟨k, hk⟩ := exists_rank bits power hbits
    exact .inl ⟨k, by rw [hr, hk, Nat.pow_succ, Nat.mul_assoc]⟩

/-- Halves have the halves of whole parts: what cannot be halved exactly has no whole part. -/
theorem HasPart.half (h : HasPart n x) (hy : IsWhole 2 y) : HasPart (n / 2) (x / y) := by
  obtain ⟨r, hr, rfl, rfl⟩ := h
  obtain ⟨k, hk, rfl, hku⟩ := hy
  have hunits := unitsPerOne_pos
  have halved : finite false r hr / finite false k hk = ofUnits false (unitsAt r) 2 := by
    have same := nearestRank_scale unitsPerOne_pos (unitsAt r) 2
    rw [finite_div _ _ _ _ (rank_pos (by decide) hku), Bool.bne_false, hku, ofUnits, ofUnits, same]
  have hless : nearestRank (unitsAt r) 2 ≤ r :=
    nearestRank_le (by decide) (Nat.le_mul_of_pos_right _ (by decide))
  refine ⟨nearestRank (unitsAt r) 2, hless.trans_lt hr, ?_, ?_⟩
  · rw [halved, ofUnits, ofRank, dif_pos (hless.trans_lt hr)]
  · rcases exists_rank_half r with ⟨half, hhalf⟩ | hfew
    · have hnearest : nearestRank (unitsAt r) 2 = half := by
        rw [hhalf, nearestRank_unitsAt (by decide)]
      rw [hnearest, hhalf, Nat.div_div_eq_div_mul, Nat.mul_div_mul_right _ _ (by decide)]
    · have hone : 2 ^ 53 < unitsPerOne := by
        rw [unitsPerOne_eq]
        generalize hone : 1074 = one
        exact Nat.pow_lt_pow_right (by decide) (by omega)
      have hnone : unitsAt r < unitsPerOne := hfew.trans_lt hone
      rw [Nat.div_eq_of_lt ((unitsAt_strictMono.monotone hless).trans_lt hnone),
        Nat.div_eq_of_lt hnone]

end Parts

end ClipRender.Binary64
