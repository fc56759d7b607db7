import ClipRender.Proofs.Binary64.Wholes

set_option autoImplicit false

/-!
Rounding keeps the order of exact values, over the infinities too. So a quotient does not fall as
its dividend rises, nor does a difference as the number rises from which another is taken away, and
a sum is on that side of a number to which the other one moves it.
-/

namespace ClipRender.Binary64

section Ranks

variable {a b den : Nat}

theorem roundHalfEven_mono (h : a ≤ b) : roundHalfEven a den ≤ roundHalfEven b den := by
  have hfloor : a / den ≤ b / den := Nat.div_le_div_right h
  have hsplit := Nat.div_add_mod a den
  have hother := Nat.div_add_mod b den
  rcases Nat.eq_or_lt_of_le hfloor with hsame | hless
  · rw [hsame] at hsplit
    unfold roundHalfEven
    rw [hsame]
    split <;> split <;> omega
  · -- at most the next whole number, which the greater quotient is not below
    unfold roundHalfEven
    split <;> split <;> omega

theorem windowOf_mono (h : a ≤ b) : windowOf a den ≤ windowOf b den := by
  have hlog : (a / den).log2 ≤ (b / den).log2 := by
    by_cases hzero : a / den = 0
    · rw [hzero]
      exact Nat.zero_le _
    · refine (Nat.le_log2 ?_).mpr ?_
      · exact Nat.ne_of_gt (Nat.lt_of_lt_of_le (Nat.pos_of_ne_zero hzero) (Nat.div_le_div_right h))
      · exact Nat.le_trans (Nat.log2_self_le hzero) (Nat.div_le_div_right h)
  exact Nat.sub_le_sub_right hlog 52

theorem nearestRank_mono (hden : 0 < den) (h : a ≤ b) : nearestRank a den ≤ nearestRank b den := by
  have hstep : ∀ w, 0 < den * 2 ^ w := fun w => Nat.mul_pos hden (Nat.two_pow_pos w)
  rw [nearestRank_eq, nearestRank_eq]
  rcases Nat.eq_or_lt_of_le (@windowOf_mono a b den h) with hsame | hless
  · rw [hsame]
    exact Nat.add_le_add_left (roundHalfEven_mono h) _
  · -- the lesser quotient is rounded to the end of its window at most, and the windows are in order
    obtain ⟨-, hhigh⟩ := windowOf_bounds a hden
    obtain ⟨hlow, -⟩ := windowOf_bounds b hden
    have hlast := roundHalfEven_le (hstep _) hhigh.le
    have hfirst := le_roundHalfEven (hstep _) (hlow.resolve_left (by omega))
    have hwindows := Nat.mul_le_mul_right blockSize (Nat.succ_le_of_lt hless)
    rw [Nat.succ_mul] at hwindows
    omega

end Ranks

/-- All ranks past the last one stand at one place. -/
def capped (rank : Nat) : Nat := if rank < rankLimit then rank else rankLimit

theorem capped_mono {r k : Nat} (h : r ≤ k) : capped r ≤ capped k := by
  unfold capped
  split <;> split <;> omega

/-- Where a quotient of units stands once it is rounded. -/
def placeOf (k : Int) (den : Nat) : Int :=
  if k < 0 then -(capped (nearestRank k.natAbs den) : Int) else capped (nearestRank k.natAbs den)

theorem placeOf_mono {k l : Int} {den : Nat} (hden : 0 < den) (h : k ≤ l) :
    placeOf k den ≤ placeOf l den := by
  unfold placeOf
  split <;> split
  · have := capped_mono (nearestRank_mono hden (show l.natAbs ≤ k.natAbs by omega))
    omega
  · omega
  · omega
  · have := capped_mono (nearestRank_mono hden (show k.natAbs ≤ l.natAbs by omega))
    omega

theorem ordinal?_ofUnits (k : Int) (den : Nat) :
    (ofUnits (k < 0) k.natAbs den).ordinal? = some (placeOf k den) := by
  rw [ofUnits, ofRank, placeOf, capped]
  split
  · by_cases hk : k < 0 <;> simp [ordinal?, hk]
  · by_cases hk : k < 0 <;> simp [ordinal?, hk]

theorem placeOf_zero {den : Nat} (hden : 0 < den) : placeOf 0 den = 0 := by
  have hzero : nearestRank 0 den = 0 :=
    Nat.le_zero.mp (nearestRank_le hden (Nat.zero_le _))
  rw [placeOf, if_neg (by decide), Int.natAbs_zero, hzero]
  rfl

theorem le_of_ordinal {x y : Binary64} {k l : Int} (hx : x.ordinal? = some k)
    (hy : y.ordinal? = some l) (h : k ≤ l) : le x y = true := by
  rw [le, compare, hx, hy]
  exact decide_eq_true h

theorem ordinal?_ofQuotient (n : Int) {c : Int} (hc : 0 < c) :
    (ofQuotient n c).ordinal? = some (placeOf (n * unitsPerOne) c.natAbs) := by
  have hunits := unitsPerOne_pos
  rw [ofQuotient, ← ordinal?_ofUnits]
  generalize unitsPerOne = units at hunits ⊢
  have hsign : n * units < 0 ↔ n < 0 := by
    refine ⟨fun hn => ?_, fun hn => Int.mul_neg_of_neg_of_pos hn (by exact_mod_cast hunits)⟩
    by_contra hnonneg
    have hproduct : 0 ≤ n * units := Int.mul_nonneg (not_lt.mp hnonneg) (Int.natCast_nonneg _)
    exact absurd hproduct (not_le.mpr hn)
  rw [decide_eq_decide.mpr hsign, Int.natAbs_mul, Int.natAbs_natCast,
    decide_eq_false (not_lt.mpr hc.le), Bool.bne_false]

theorem ofQuotient_mono {a b c : Int} (hc : 0 < c) (h : a ≤ b) :
    le (ofQuotient a c) (ofQuotient b c) = true := by
  refine le_of_ordinal (ordinal?_ofQuotient a hc) (ordinal?_ofQuotient b hc) ?_
  refine placeOf_mono (Int.natAbs_pos.mpr hc.ne') ?_
  exact Int.mul_le_mul_of_nonneg_right h (Int.natCast_nonneg _)

section Differences

variable {x y m : Binary64} {k l n : Int}

theorem ordinal?_add (hx : x.isFinite = true) (hy : y.isFinite = true) :
    (x + y).ordinal? = some (placeOf (x.signedUnits + y.signedUnits) 1) := by
  by_cases hsum : x.signedUnits + y.signedUnits = 0
  · obtain ⟨s, hzero⟩ := add_of_eq_zero hx hy hsum
    rw [hzero, hsum, placeOf_zero Nat.one_pos]
    cases s <;> rfl
  · rw [add_eq hx hy hsum, ordinal?_ofUnits]

theorem ordinal?_finite (s : Bool) {r : Nat} (hr : r < rankLimit) :
    ∃ k, (finite s r hr).ordinal? = some k ∧ -(rankLimit : Int) < k ∧ k < rankLimit := by
  refine ⟨if s then -(r : Int) else r, rfl, ?_⟩
  split <;> omega

theorem signedUnits_le (hx : x.isFinite = true) (hy : y.isFinite = true) (h : le x y = true) :
    x.signedUnits ≤ y.signedUnits := by
  rw [le_iff hx hy] at h
  by_contra hless
  exact absurd (value_lt_iff.mpr (not_le.mp hless)) (not_lt.mpr h)

theorem le_ordinal (h : le x y = true) : ∃ k l, x.ordinal? = some k ∧ y.ordinal? = some l ∧ k ≤ l := by
  rw [le, compare] at h
  split at h
  · next k l hx hy => exact ⟨k, l, hx, hy, of_decide_eq_true h⟩
  · cases h

theorem le_infinity (h : le x y = true) :
    (x = .infinity false → y = .infinity false) ∧ (y = .infinity true → x = .infinity true) := by
  obtain ⟨k, l, hx, hy, hkl⟩ := le_ordinal h
  have hlimit : (0 : Int) < rankLimit := by decide
  constructor
  · rintro rfl
    have hk : (rankLimit : Int) = k := Option.some.inj hx
    cases y with
    | nan => exact nomatch hy
    | infinity t =>
      cases t with
      | false => rfl
      | true =>
        have hl : -(rankLimit : Int) = l := Option.some.inj hy
        omega
    | finite t r hr =>
      obtain ⟨l', hl', -, hless⟩ := ordinal?_finite t hr
      obtain rfl := Option.some.inj (hl'.symm.trans hy)
      omega
  · rintro rfl
    have hl : -(rankLimit : Int) = l := Option.some.inj hy
    cases x with
    | nan => exact nomatch hx
    | infinity s =>
      cases s with
      | true => rfl
      | false =>
        have hk : (rankLimit : Int) = k := Option.some.inj hx
        omega
    | finite s r hr =>
      obtain ⟨k', hk', hmore, -⟩ := ordinal?_finite s hr
      obtain rfl := Option.some.inj (hk'.symm.trans hx)
      omega

theorem exceeds_mono (h : le x y = true) (hexceeds : x.exceeds n = true) : y.exceeds n = true := by
  obtain ⟨hgreatest, hleast⟩ := le_infinity h
  obtain ⟨k, l, hx, hy, hkl⟩ := le_ordinal h
  cases y with
  | nan => exact nomatch hy
  | infinity t =>
    cases t with
    | false => rfl
    | true =>
      rw [hleast rfl] at hexceeds
      exact nomatch hexceeds
  | finite t r' hr' =>
    cases x with
    | nan => exact nomatch hx
    | infinity s =>
      cases s with
      | true => exact nomatch hexceeds
      | false => exact nomatch hgreatest rfl
    | finite s r hr =>
      have hunits := signedUnits_le rfl rfl h
      exact decide_eq_true (lt_of_lt_of_le (of_decide_eq_true hexceeds) hunits)

/-- The more a number is, the more is left of it when another is taken away. -/
theorem exceeds_sub_mono (h : le x y = true) (hexceeds : (x - m).exceeds n = true) :
    (y - m).exceeds n = true := by
  obtain ⟨hgreatest, hleast⟩ := le_infinity h
  obtain ⟨k, l, hx, hy, hkl⟩ := le_ordinal h
  cases m with
  | nan => cases x <;> exact nomatch hexceeds
  | infinity s =>
    cases s with
    | false =>
      -- what is left of anything is less than every number, or nothing
      cases x with
      | infinity t => cases t <;> exact nomatch hexceeds
      | _ => exact nomatch hexceeds
    | true =>
      cases y with
      | nan => exact nomatch hy
      | infinity t =>
        cases t with
        | false => rfl
        | true =>
          rw [hleast rfl] at hexceeds
          exact nomatch hexceeds
      | finite => rfl
  | finite u r hr =>
    cases y with
    | nan => exact nomatch hy
    | infinity t =>
      cases t with
      | false => rfl
      | true =>
        rw [hleast rfl] at hexceeds
        exact nomatch hexceeds
    | finite t r' hr' =>
      cases x with
      | nan => exact nomatch hx
      | infinity s =>
        cases s with
        | true => exact nomatch hexceeds
        | false => exact nomatch hgreatest rfl
      | finite s r'' hr'' =>
        have hm : (-finite u r hr).isFinite = true := rfl
        refine exceeds_mono (le_of_ordinal (ordinal?_add rfl hm) (ordinal?_add rfl hm) ?_) hexceeds
        exact placeOf_mono Nat.one_pos (Int.add_le_add_right (signedUnits_le rfl rfl h) _)

end Differences

section Moved

variable {x y m n : Binary64} (hx : x.isFinite = true) (hy : y.isFinite = true)

include hx

theorem ordinal?_placeOf : x.ordinal? = some (placeOf x.signedUnits 1) := by
  cases x with
  | finite s r hr =>
    have same : nearestRank (unitsAt r) 1 = r := by
      have exact := nearestRank_unitsAt Nat.one_pos r
      rwa [Nat.mul_one] at exact
    rcases Nat.eq_zero_or_pos r with rfl | hpos
    · rw [show (finite s 0 hr).signedUnits = 0 by cases s <;> simp [signedUnits],
        placeOf_zero Nat.one_pos]
      cases s <;> rfl
    · have hunits := unitsAt_strictMono hpos
      rw [unitsAt_zero] at hunits
      cases s with
      | false => simp [signedUnits, placeOf, ordinal?, same, capped, hr]
      | true => simp [signedUnits, placeOf, ordinal?, same, capped, hr, hunits.ne']
  | infinity s => cases hx
  | nan => cases hx

theorem le_infinity_of_isFinite : le x (.infinity false) = true := by
  cases x with
  | finite s r hr =>
    obtain ⟨k, hk, -, hless⟩ := ordinal?_finite s hr
    exact le_of_ordinal hk rfl hless.le
  | infinity s => cases hx
  | nan => cases hx

include hy

/-- What is not negative moves a number up, if at all, and what is not positive moves it down. -/
theorem le_add (hnonneg : 0 ≤ y.value) : le x (x + y) = true := by
  rw [value_nonneg_iff] at hnonneg
  refine le_of_ordinal (ordinal?_placeOf hx) (ordinal?_add hx hy) (placeOf_mono Nat.one_pos ?_)
  omega

theorem add_le (hnonpos : y.value ≤ 0) : le (x + y) x = true := by
  have hunits : y.signedUnits ≤ 0 := by
    have hnot := not_lt.mpr hnonpos
    rw [value_pos_iff] at hnot
    omega
  refine le_of_ordinal (ordinal?_add hx hy) (ordinal?_placeOf hx) (placeOf_mono Nat.one_pos ?_)
  omega

theorem sub_le_sub (hm : m.isFinite = true) (hn : n.isFinite = true) (hxm : le x m = true)
    (hny : le n y = true) : le (x - y) (m - n) = true := by
  have above := signedUnits_le hx hm hxm
  have below := signedUnits_le hn hy hny
  have hplace := @placeOf_mono (x.signedUnits + (-y).signedUnits) (m.signedUnits + (-n).signedUnits)
    1 Nat.one_pos (by rw [signedUnits_neg, signedUnits_neg]; omega)
  exact le_of_ordinal (ordinal?_add hx ((isFinite_neg y).trans hy))
    (ordinal?_add hm ((isFinite_neg n).trans hn)) hplace

end Moved

end ClipRender.Binary64
