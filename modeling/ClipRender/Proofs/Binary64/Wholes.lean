import ClipRender.Proofs.Binary64.Values

set_option autoImplicit false

/-!
Arithmetic that stays in range, and whole numbers in it. Whole parts and doubles are never rounded,
and the quotient of two whole numbers is the quotient of the numbers that stand for them.
-/

namespace ClipRender.Binary64

section Exact

/-- Every magnitude is a number of at most 53 bits with a power of two. -/
theorem exists_bits (r : Nat) : ∃ m k, m ≤ 2 ^ 53 ∧ unitsAt r = m * 2 ^ k := by
  have hsize : 2 ^ 53 = 2 * blockSize := by decide
  obtain ⟨b, m, rfl, hlow, hhigh⟩ := exists_window r
  exact ⟨m, b, hsize ▸ hhigh.le, unitsAt_window hlow hhigh.le⟩

theorem exists_rank_double (r : Nat) : ∃ s, unitsAt s = unitsAt r * 2 := by
  obtain ⟨m, k, hm, hr⟩ := exists_bits r
  obtain ⟨s, hs⟩ := exists_rank m (k + 1) hm
  exact ⟨s, by rw [hs, hr, Nat.pow_succ, Nat.mul_assoc]⟩

/-- The whole part of a magnitude is a magnitude: either the fraction takes up no bits, or what is
left has no more bits than there were. -/
theorem exists_rank_whole (r : Nat) : ∃ s, unitsAt s = unitsAt r / unitsPerOne * unitsPerOne := by
  obtain ⟨m, k, hm, hr⟩ := exists_bits r
  rw [unitsPerOne_eq]
  generalize 1074 = one
  rcases Nat.le_total one k with hk | hk
  · refine ⟨r, ?_⟩
    have hdvd : 2 ^ one ∣ unitsAt r := hr ▸ Dvd.dvd.mul_left (Nat.pow_dvd_pow 2 hk) m
    rw [Nat.div_mul_cancel hdvd]
  · obtain ⟨s, hs⟩ := exists_rank (unitsAt r / 2 ^ one) one (by
      refine le_trans ?_ hm
      rw [hr]
      refine Nat.div_le_of_le_mul ?_
      rw [Nat.mul_comm]
      exact Nat.mul_le_mul_right m (Nat.pow_le_pow_right (by decide) hk))
    exact ⟨s, hs⟩

theorem roundHalfEven_scale {k : Nat} (hk : 0 < k) (num den : Nat) :
    roundHalfEven (num * k) (den * k) = roundHalfEven num den := by
  have hlt : 2 * (num % den * k) < den * k ↔ 2 * (num % den) < den := by
    rw [← Nat.mul_assoc]
    exact Nat.mul_lt_mul_right hk
  have heq : 2 * (num % den * k) = den * k ↔ 2 * (num % den) = den := by
    rw [← Nat.mul_assoc]
    exact Nat.mul_left_inj hk.ne'
  simp only [roundHalfEven, Nat.mul_div_mul_right num den hk, Nat.mul_mod_mul_right, hlt, heq]

theorem nearestRank_scale {k : Nat} (hk : 0 < k) (num den : Nat) :
    nearestRank (num * k) (den * k) = nearestRank num den := by
  have hwindow : windowOf (num * k) (den * k) = windowOf num den := by
    rw [windowOf, Nat.mul_div_mul_right num den hk, windowOf]
  rw [nearestRank_eq, nearestRank_eq, hwindow, Nat.mul_right_comm, roundHalfEven_scale hk]

end Exact

section Sized

/-- A finite number with the given sign and at most `2 ^ a`. -/
def Sized (negative : Bool) (a : Nat) (x : Binary64) : Prop :=
  ∃ r h, x = .finite negative r h ∧ unitsAt r ≤ 2 ^ a * unitsPerOne

variable {s t : Bool} {a b num den : Nat} {x y : Binary64}

theorem Sized.isFinite (h : Sized s a x) : x.isFinite = true := by
  obtain ⟨r, hr, rfl, -⟩ := h
  rfl

theorem Sized.mono (h : Sized s a x) (hab : a ≤ b) : Sized s b x := by
  obtain ⟨r, hr, rfl, hunits⟩ := h
  exact ⟨r, hr, rfl,
    hunits.trans (Nat.mul_le_mul_right _ (Nat.pow_le_pow_right (by decide) hab))⟩

theorem exists_rank_power (a : Nat) : ∃ r, unitsAt r = 2 ^ a * unitsPerOne := by
  rw [unitsPerOne_eq]
  generalize 1074 = one
  obtain ⟨r, hr⟩ := exists_rank 1 (a + one) (by decide)
  exact ⟨r, by rw [hr, Nat.one_mul, Nat.pow_add]⟩

theorem sized_ofUnits (hden : 0 < den) (ha : a < 1024) (h : num ≤ 2 ^ a * unitsPerOne * den) :
    Sized s a (ofUnits s num den) := by
  obtain ⟨top, htop⟩ := exists_rank_power a
  rw [← htop] at h
  have hunits : unitsAt (nearestRank num den) ≤ 2 ^ a * unitsPerOne := by
    rw [← htop]
    exact unitsAt_strictMono.monotone (nearestRank_le hden h)
  have hlimit := rank_lt_limit ha hunits
  exact ⟨_, hlimit, by rw [ofUnits, ofRank, dif_pos hlimit], hunits⟩

theorem finite_mul (s t : Bool) {r k : Nat} (hr : r < rankLimit) (hk : k < rankLimit) :
    finite s r hr * finite t k hk = ofUnits (s != t) (unitsAt r * unitsAt k) unitsPerOne := by
  change mul _ _ = _
  rw [mul]

theorem Sized.mul (hx : Sized s a x) (hy : Sized t b y) (hab : a + b < 1024) :
    Sized (s != t) (a + b) (x * y) := by
  obtain ⟨r, hr, rfl, hru⟩ := hx
  obtain ⟨k, hk, rfl, hku⟩ := hy
  rw [finite_mul]
  apply sized_ofUnits unitsPerOne_pos hab
  generalize unitsPerOne = one at hru hku ⊢
  calc unitsAt r * unitsAt k ≤ 2 ^ a * one * (2 ^ b * one) := Nat.mul_le_mul hru hku
    _ = 2 ^ (a + b) * one * one := by rw [Nat.pow_add]; ring

theorem add_of_eq_zero (hx : x.isFinite = true) (hy : y.isFinite = true)
    (hsum : x.signedUnits + y.signedUnits = 0) : ∃ s, x + y = signedZero s := by
  change ∃ s, add x y = _
  cases x with
  | finite s r hr =>
    cases y with
    | finite t k hk => exact ⟨s && t, by simp [add, hsum]⟩
    | infinity t => cases hy
    | nan => cases hy
  | infinity s => cases hx
  | nan => cases hx

theorem Sized.sub (hx : Sized false a x) (hy : Sized false a y) (ha : a < 1024) :
    ∃ s, Sized s a (x - y) := by
  by_cases hsame : x.signedUnits + (-y).signedUnits = 0
  · have hzero := add_of_eq_zero hx.isFinite ((isFinite_neg y).trans hy.isFinite) hsame
    obtain ⟨s, hzero⟩ := hzero
    exact ⟨s, 0, by decide, hzero, by simp⟩
  · have hdiff := add_eq hx.isFinite ((isFinite_neg y).trans hy.isFinite) hsame
    refine ⟨_, hdiff ▸ sized_ofUnits Nat.one_pos ha ?_⟩
    obtain ⟨r, hr, rfl, hru⟩ := hx
    obtain ⟨k, hk, rfl, hku⟩ := hy
    rw [signedUnits_neg]
    simp only [signedUnits, Bool.false_eq_true, if_false]
    omega

end Sized

section Whole

def IsWhole (n : Nat) (x : Binary64) : Prop :=
  ∃ r h, x = .finite false r h ∧ unitsAt r = n * unitsPerOne

variable {s : Bool} {a n m : Nat} {x y : Binary64}

theorem isWhole_ofInt {i : Int} (hnonneg : 0 ≤ i) (hi : i ≤ 2 ^ 53) :
    IsWhole i.toNat (ofInt i) := by
  obtain ⟨r, h, hfinite, hunits⟩ := exists_ofInt (n := i) (by omega)
  rw [decide_eq_false (by omega)] at hfinite
  exact ⟨r, h, hfinite, by rw [hunits]; congr 1; omega⟩

theorem ofNat_eq_ofInt (n : Nat) : ofNat n = ofInt n := by
  rw [ofNat, ofInt, decide_eq_false (by omega), Int.natAbs_natCast]

theorem isWhole_ofNat (hn : n ≤ 2 ^ 53) : IsWhole n (ofNat n) := by
  have hwhole := isWhole_ofInt (Int.natCast_nonneg n) (by exact_mod_cast hn)
  rw [Int.toNat_natCast] at hwhole
  rw [ofNat_eq_ofInt]
  exact hwhole

namespace IsWhole

theorem sized (h : IsWhole n x) (hn : n ≤ 2 ^ a) : Sized false a x := by
  obtain ⟨r, hr, rfl, hunits⟩ := h
  exact ⟨r, hr, rfl, by rw [hunits]; exact Nat.mul_le_mul_right _ hn⟩

theorem eq_ofInt (h : IsWhole n x) : x = ofInt n := by
  obtain ⟨r, hr, rfl, hunits⟩ := h
  have hexact := ofUnits_exact false Nat.one_pos r
  rw [Nat.mul_one, hunits, ofRank, dif_pos hr] at hexact
  rw [ofInt, decide_eq_false (by omega), Int.natAbs_natCast, hexact]

theorem toInt? (h : IsWhole n x) : x.toInt? = some n := by
  obtain ⟨r, hr, rfl, hunits⟩ := h
  have hpos := unitsPerOne_pos
  rw [Binary64.toInt?, hunits, Nat.mul_mod_left, if_pos rfl, truncate, toWhole, hunits,
    Nat.mul_div_cancel n hpos]
  rfl

end IsWhole

theorem finite_div (s t : Bool) {r k : Nat} (hr : r < rankLimit) (hk : k < rankLimit)
    (hpos : 0 < k) :
    finite s r hr / finite t k hk = ofUnits (s != t) (unitsAt r * unitsPerOne) (unitsAt k) := by
  change div _ _ = _
  rw [div, if_neg hpos.ne']

theorem rank_pos {k : Nat} (hn : 0 < n) (hunits : unitsAt k = n * unitsPerOne) : 0 < k := by
  rw [Nat.pos_iff_ne_zero]
  rintro rfl
  rw [unitsAt_zero] at hunits
  have hpos := Nat.mul_pos hn unitsPerOne_pos
  omega

theorem Sized.div (hx : Sized s a x) (hy : IsWhole n y) (hn : 0 < n) (ha : a < 1024) :
    Sized s a (x / y) := by
  obtain ⟨r, hr, rfl, hru⟩ := hx
  obtain ⟨k, hk, rfl, hku⟩ := hy
  rw [finite_div s false hr hk (rank_pos hn hku), Bool.bne_false, hku]
  have hone := unitsPerOne_pos
  apply sized_ofUnits (Nat.mul_pos hn hone) ha
  generalize unitsPerOne = one at hru hone ⊢
  calc unitsAt r * one ≤ 2 ^ a * one * one := Nat.mul_le_mul_right one hru
    _ ≤ 2 ^ a * one * (n * one) := Nat.mul_le_mul_left _ (Nat.le_mul_of_pos_left one hn)

theorem IsWhole.div (hx : IsWhole n x) (hy : IsWhole m y) (hm : 0 < m) :
    x / y = ofQuotient n m := by
  obtain ⟨r, hr, rfl, hru⟩ := hx
  obtain ⟨k, hk, rfl, hku⟩ := hy
  rw [finite_div false false hr hk (rank_pos hm hku), hru, hku, ofQuotient, ofUnits, ofUnits,
    nearestRank_scale unitsPerOne_pos, decide_eq_false (by omega), decide_eq_false (by omega),
    Int.natAbs_natCast, Int.natAbs_natCast]

theorem IsWhole.mul_two (hx : IsWhole n x) (hy : IsWhole 2 y) (hn : n * 2 ≤ 2 ^ a) (ha : a < 1024) :
    IsWhole (n * 2) (x * y) := by
  obtain ⟨r, hr, rfl, hru⟩ := hx
  obtain ⟨k, hk, rfl, hku⟩ := hy
  obtain ⟨d, hd⟩ := exists_rank_double r
  have hunits : unitsAt d = n * 2 * unitsPerOne := by rw [hd, hru, Nat.mul_right_comm]
  have hlimit : d < rankLimit := rank_lt_limit ha (by rw [hunits]; exact Nat.mul_le_mul_right _ hn)
  have hproduct : unitsAt r * unitsAt k = unitsAt d * unitsPerOne := by
    rw [hd, hku, ← Nat.mul_assoc]
  refine ⟨d, hlimit, ?_, hunits⟩
  rw [finite_mul, hproduct, ofUnits_exact _ unitsPerOne_pos, ofRank, dif_pos hlimit]
  rfl

/-- Products and differences of whole numbers are exact as long as they have no more bits than a
number. -/
theorem IsWhole.mul (hx : IsWhole n x) (hy : IsWhole m y) (hsize : n * m ≤ 2 ^ 53) :
    IsWhole (n * m) (x * y) := by
  obtain ⟨r, hr, rfl, hru⟩ := hx
  obtain ⟨k, hk, rfl, hku⟩ := hy
  obtain ⟨d, hd⟩ := exists_rank (n * m) 1074 hsize
  rw [← unitsPerOne_eq] at hd
  have hlimit : d < rankLimit :=
    rank_lt_limit (by decide : 53 < 1024) (by rw [hd]; exact Nat.mul_le_mul_right _ hsize)
  have hproduct : unitsAt r * unitsAt k = unitsAt d * unitsPerOne := by
    rw [hd, hru, hku, Nat.mul_mul_mul_comm, Nat.mul_assoc (n * m)]
  refine ⟨d, hlimit, ?_, hd⟩
  rw [finite_mul, hproduct, ofUnits_exact _ unitsPerOne_pos, ofRank, dif_pos hlimit]
  rfl

theorem IsWhole.sub (hx : IsWhole n x) (hy : IsWhole m y) (hle : m ≤ n) (hn : n ≤ 2 ^ 53) :
    IsWhole (n - m) (x - y) := by
  obtain ⟨r, hr, rfl, hru⟩ := hx
  obtain ⟨k, hk, rfl, hku⟩ := hy
  have hsum : (finite false r hr).signedUnits + (-finite false k hk).signedUnits
      = ((n - m) * unitsPerOne : Nat) := by
    have hless := Nat.mul_le_mul_right unitsPerOne hle
    rw [signedUnits_neg]
    simp only [signedUnits, Bool.false_eq_true, if_false]
    rw [hru, hku, Nat.sub_mul]
    omega
  by_cases hsame : n - m = 0
  · rw [hsame, Nat.zero_mul] at hsum
    refine ⟨0, by decide, ?_, by rw [hsame, unitsAt_zero, Nat.zero_mul]⟩
    change add (finite false r hr) (finite true k hk) = _
    exact if_pos hsum
  · obtain ⟨d, hd⟩ := exists_rank (n - m) 1074 ((Nat.sub_le n m).trans hn)
    rw [← unitsPerOne_eq] at hd
    have hlimit : d < rankLimit := by
      refine rank_lt_limit (by decide : 53 < 1024) ?_
      rw [hd]
      exact Nat.mul_le_mul_right _ ((Nat.sub_le n m).trans hn)
    have hpos : 0 < (n - m) * unitsPerOne := Nat.mul_pos (Nat.pos_of_ne_zero hsame) unitsPerOne_pos
    have hdiff : finite false r hr - finite false k hk = ofUnits false ((n - m) * unitsPerOne) 1 := by
      have hadd := add_eq (x := finite false r hr) (y := -finite false k hk) rfl rfl (by omega)
      rwa [hsum, decide_eq_false (by omega), Int.natAbs_natCast] at hadd
    have hexact := ofUnits_exact false Nat.one_pos d
    rw [Nat.mul_one, hd, ofRank, dif_pos hlimit] at hexact
    exact ⟨d, hlimit, hdiff.trans hexact, hd⟩

end Whole

end ClipRender.Binary64
