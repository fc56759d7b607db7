import ClipRender.Proofs.Binary64.Nearness
import ClipRender.Proofs.CropAgreement

set_option autoImplicit false

/-!
The box of a crop as whole numbers have it. As long as the sides of the frame times those of the
ratio have at most 50 bits, no rounding shows: the same side is cut, and as much of it. So the box
is even, inside of the frame and in its middle, and one of its sides is that of the frame.
-/

namespace ClipRender.Filter.Crop

open Binary64

def IsWider (ratio : Ratio) (width height : Int) : Prop :=
  height * ratio.width < width * ratio.height

instance (ratio : Ratio) (width height : Int) : Decidable (IsWider ratio width height) :=
  inferInstanceAs (Decidable (_ < _))

/-- The greatest even size of the ratio in the frame, but for an odd pixel. -/
def exactSize (ratio : Ratio) (width height : Int) : Int × Int :=
  if IsWider ratio width height then
    (2 * (height * ratio.width / (2 * ratio.height)), 2 * (height / 2))
  else (2 * (width / 2), 2 * (width * ratio.height / (2 * ratio.width)))

def exactBox (ratio : Ratio) (width height : Int) : Box :=
  let (w, h) := exactSize ratio width height
  ⟨w, h, (width - w) / 2, (height - h) / 2⟩

/-- An even part of a side that has its middle in the middle of the side, to within one pixel. -/
structure Centred (whole part place : Int) : Prop where
  even : 2 ∣ part
  nonneg : 0 ≤ part
  le : part ≤ whole
  place_nonneg : 0 ≤ place
  inside : place + part ≤ whole
  middle : |whole - part - place - place| ≤ 1

section Geometry

variable {ratio : Ratio} {w h : Int}

theorem exactBox_wider (hwider : IsWider ratio w h) :
    exactBox ratio w h
      = ⟨2 * (h * ratio.width / (2 * ratio.height)), 2 * (h / 2),
         (w - 2 * (h * ratio.width / (2 * ratio.height))) / 2, (h - 2 * (h / 2)) / 2⟩ := by
  rw [exactBox, exactSize, if_pos hwider]

theorem exactBox_taller (htaller : ¬ IsWider ratio w h) :
    exactBox ratio w h
      = ⟨2 * (w / 2), 2 * (w * ratio.height / (2 * ratio.width)), (w - 2 * (w / 2)) / 2,
         (h - 2 * (w * ratio.height / (2 * ratio.width))) / 2⟩ := by
  rw [exactBox, exactSize, if_neg htaller]

theorem Centred.of_half {whole half : Int} (hnonneg : 0 ≤ half) (hle : 2 * half ≤ whole) :
    Centred whole (2 * half) ((whole - 2 * half) / 2) where
  even := ⟨half, rfl⟩
  nonneg := by omega
  le := hle
  place_nonneg := by omega
  inside := by omega
  middle := by
    rw [abs_le]
    omega

theorem Centred.of_cut {side other num den : Int} (hside : 0 < side) (hnum : 0 < num)
    (hden : 0 < den) (hcross : side * num ≤ other * den) :
    Centred other (2 * (side * num / (2 * den))) ((other - 2 * (side * num / (2 * den))) / 2) := by
  have hfloor : side * num / (2 * den) * (2 * den) ≤ side * num := Int.ediv_mul_le _ (by omega)
  refine .of_half (Int.ediv_nonneg (Int.mul_pos hside hnum).le (by omega)) ?_
  refine le_of_mul_le_mul_right ?_ hden
  calc 2 * (side * num / (2 * den)) * den = side * num / (2 * den) * (2 * den) := by ring
    _ ≤ other * den := hfloor.trans hcross

theorem exactBox_keeps :
    w - 1 ≤ (exactBox ratio w h).width ∨ h - 1 ≤ (exactBox ratio w h).height := by
  by_cases hwider : IsWider ratio w h
  · rw [exactBox_wider hwider]
    exact .inr (by dsimp only; omega)
  · rw [exactBox_taller hwider]
    exact .inl (by dsimp only; omega)

variable (hrw : 0 < ratio.width) (hrh : 0 < ratio.height)

include hrw hrh

theorem exactBox_centred (hw : 0 < w) (hh : 0 < h) :
    Centred w (exactBox ratio w h).width (exactBox ratio w h).x ∧
      Centred h (exactBox ratio w h).height (exactBox ratio w h).y := by
  by_cases hwider : IsWider ratio w h
  · rw [exactBox_wider hwider]
    exact ⟨.of_cut hh hrw hrh hwider.le, .of_half (by omega) (by omega)⟩
  · rw [exactBox_taller hwider]
    exact ⟨.of_half (by omega) (by omega), .of_cut hw hrh hrw (not_lt.mp hwider)⟩

/-- Something is left of a frame whose sides have two pixels for each part of the ratio. -/
theorem exactBox_pos (hw : 2 * max ratio.width ratio.height ≤ w)
    (hh : 2 * max ratio.width ratio.height ≤ h) :
    0 < (exactBox ratio w h).width ∧ 0 < (exactBox ratio w h).height := by
  have hwide := le_max_left ratio.width ratio.height
  have htall := le_max_right ratio.width ratio.height
  have cut_pos : ∀ {side num den : Int}, 0 < num → 0 < den → 2 * den ≤ side →
      0 < 2 * (side * num / (2 * den)) := by
    intro side num den hnum hden hside
    have hone : 1 ≤ side * num / (2 * den) := by
      rw [Int.le_ediv_iff_mul_le (by omega), one_mul]
      exact hside.trans (le_mul_of_one_le_right (by omega) hnum)
    omega
  by_cases hwider : IsWider ratio w h
  · rw [exactBox_wider hwider]
    exact ⟨cut_pos hrw hrh (by omega), by dsimp only; omega⟩
  · rw [exactBox_taller hwider]
    exact ⟨by dsimp only; omega, cut_pos hrh hrw (by omega)⟩

end Geometry

section Rounded

variable {x : Binary64} {n m side : Nat}

theorem isWhole_natCast (hn : n ≤ 2 ^ 53) : IsWhole n (ofInt n) := by
  have hwhole := isWhole_ofInt (Int.natCast_nonneg n) (by exact_mod_cast hn)
  rwa [Int.toNat_natCast] at hwhole

theorem evenPartOf_part (hx : HasPart n x) : evenPartOf x = .ok ↑(2 * (n / 2)) := by
  rw [evenPartOf, wholePart, (hx.half isWhole_two).truncate, Nat.mul_comm]
  rfl

/-- The product fits into a number, so that only the quotient is rounded. -/
theorem scaled_even (hside : 0 < side ∧ side < 2 ^ 53) (hn : 0 < n ∧ n < 2 ^ 53)
    (hm : 0 < m ∧ m < 2 ^ 53) (hproduct : side * n < 2 ^ 53) :
    (scaleBy (ofInt side) n m >>= evenPartOf) = .ok ↑(2 * (side * n / (2 * m))) := by
  have hwhole := (isWhole_natCast hside.2.le).mul (isWhole_natCast hn.2.le) hproduct.le
  have hpart := hwhole.hasPart_div (isWhole_natCast hm.2.le) ⟨Nat.mul_pos hside.1 hn.1, hproduct⟩
    ⟨hm.1, hm.2.le⟩
  rw [scaleBy_eq (by omega) (by omega), ok_bind, evenPartOf_part hpart, Nat.div_div_eq_div_mul,
    Nat.mul_comm m]

theorem marginOf_exact {part : Nat} (hside : side ≤ 2 ^ 53) (hpart : part ≤ side) :
    marginOf (ofInt side) part = .ok (((side - part : Int)) / 2) := by
  have hwhole := isWhole_natCast (hpart.trans hside)
  have hhalf := ((isWhole_natCast hside).sub hwhole hpart hside).hasPart.half isWhole_two
  have hnumber : number part = .ok (ofInt part) := by
    simp [number, hwhole.isFinite]
  rw [marginOf, hnumber, ok_bind, wholePart, hhalf.truncate, ← Int.ofNat_sub hpart]
  rfl

variable {w h a b : Nat}

/-- The comparison of the rounded quotients is that of the products across. -/
theorem lt_ratio_iff (hw : 0 < w ∧ w < 2 ^ 53) (hh : 0 < h ∧ h < 2 ^ 53) (ha : 0 < a ∧ a < 2 ^ 53)
    (hb : 0 < b ∧ b < 2 ^ 53) (hcross : w * b < 2 ^ 50) :
    Binary64.lt (ofInt a / ofInt b) (ofInt w / ofInt h) = true ↔ IsWider ⟨a, b⟩ w h := by
  rw [(isWhole_natCast ha.2.le).div (isWhole_natCast hb.2.le) hb.1,
    (isWhole_natCast hw.2.le).div (isWhole_natCast hh.2.le) hh.1,
    lt_ofQuotient_iff (by omega) (by omega) (by omega) (by omega) (by omega), IsWider,
    Nat.mul_comm a]
  dsimp only
  exact_mod_cast Iff.rfl

variable (hw : 0 < w) (hh : 0 < h) (ha : 0 < a) (hb : 0 < b) (hacross : w * b < 2 ^ 50)
  (hdown : h * a < 2 ^ 50)

include hw hh ha hb hacross hdown

theorem sides_small : (w < 2 ^ 50 ∧ b < 2 ^ 50) ∧ h < 2 ^ 50 ∧ a < 2 ^ 50 :=
  ⟨⟨(Nat.le_mul_of_pos_right w hb).trans_lt hacross,
      (Nat.le_mul_of_pos_left b hw).trans_lt hacross⟩,
    (Nat.le_mul_of_pos_right h ha).trans_lt hdown, (Nat.le_mul_of_pos_left a hh).trans_lt hdown⟩

theorem size_exact : size ⟨a, b⟩ (ofInt w) (ofInt h) = .ok (exactSize ⟨a, b⟩ w h) := by
  obtain ⟨⟨hw50, hb50⟩, hh50, ha50⟩ := sides_small hw hh ha hb hacross hdown
  have choice := lt_ratio_iff (w := w) (h := h) (a := a) (b := b) (by omega) (by omega) (by omega)
    (by omega) hacross
  rw [size, quotient_eq (isWhole_natCast (by omega : h ≤ 2 ^ 53)) hh, ok_bind,
    wholeQuotient_eq (by dsimp only; omega) (by dsimp only; omega), ok_bind, exactSize]
  by_cases hwider : IsWider ⟨a, b⟩ w h
  · have width := @scaled_even a b h (by omega) (by omega) (by omega) (by omega)
    rw [if_pos (choice.mpr hwider), if_pos hwider, width, ok_bind,
      evenPartOf_part (isWhole_natCast (by omega : h ≤ 2 ^ 53)).hasPart, ok_bind]
    push_cast
    rfl
  · have height := @scaled_even b a w (by omega) (by omega) (by omega) (by omega)
    rw [if_neg (fun hlt => hwider (choice.mp hlt)), if_neg hwider,
      evenPartOf_part (isWhole_natCast (by omega : w ≤ 2 ^ 53)).hasPart, ok_bind, height, ok_bind]
    push_cast
    rfl

theorem resolve_eq_exactBox : resolve ⟨a, b⟩ w h = .ok (exactBox ⟨a, b⟩ w h) := by
  obtain ⟨⟨hw50, -⟩, hh50, -⟩ := sides_small hw hh ha hb hacross hdown
  obtain ⟨across, down⟩ := @exactBox_centred ⟨a, b⟩ w h (by simpa using ha)
    (by simpa using hb) (by omega) (by omega)
  have hsize := size_exact hw hh ha hb hacross hdown
  have hleft := across.nonneg
  have htop := down.nonneg
  have hwidth := across.le
  have hheight := down.le
  rw [exactBox] at hleft htop hwidth hheight ⊢
  rw [resolve, number_eq (by omega), ok_bind, number_eq (by omega), ok_bind, hsize, ok_bind]
  generalize exactSize ⟨a, b⟩ w h = found at hleft htop hwidth hheight ⊢
  obtain ⟨width, height⟩ := found
  obtain ⟨width, rfl⟩ := Int.eq_ofNat_of_zero_le hleft
  obtain ⟨height, rfl⟩ := Int.eq_ofNat_of_zero_le htop
  dsimp only at hwidth hheight ⊢
  rw [marginOf_exact (by omega) (by omega), ok_bind, marginOf_exact (by omega) (by omega), ok_bind]
  rfl

end Rounded

/-- The box that is computed with rounded numbers is the exact one: even, inside of the frame and in
the middle of it, with one side of the frame kept. -/
theorem resolve_exact {ratio : Ratio} {w h : Int} (hrw : 0 < ratio.width) (hrh : 0 < ratio.height)
    (hw : 0 < w) (hh : 0 < h) (hacross : w * ratio.height < 2 ^ 50)
    (hdown : h * ratio.width < 2 ^ 50) :
    ∃ box, resolve ratio w h = .ok box ∧ box = exactBox ratio w h ∧
      Centred w box.width box.x ∧ Centred h box.height box.y ∧
      (w - 1 ≤ box.width ∨ h - 1 ≤ box.height) ∧
      (2 * max ratio.width ratio.height ≤ w → 2 * max ratio.width ratio.height ≤ h →
        0 < box.width ∧ 0 < box.height) := by
  obtain ⟨across, down⟩ := exactBox_centred hrw hrh hw hh
  refine ⟨exactBox ratio w h, ?_, rfl, across, down, exactBox_keeps, exactBox_pos hrw hrh⟩
  obtain ⟨ratioWidth, ratioHeight⟩ := ratio
  dsimp only at hrw hrh hacross hdown
  obtain ⟨a, rfl⟩ := Int.eq_ofNat_of_zero_le hrw.le
  obtain ⟨b, rfl⟩ := Int.eq_ofNat_of_zero_le hrh.le
  obtain ⟨w, rfl⟩ := Int.eq_ofNat_of_zero_le hw.le
  obtain ⟨h, rfl⟩ := Int.eq_ofNat_of_zero_le hh.le
  exact resolve_eq_exactBox (by omega) (by omega) (by omega) (by omega) (by exact_mod_cast hacross)
    (by exact_mod_cast hdown)

/-- A frame of odd height that is wider than the ratio by one part in `10 ^ 15`. -/
theorem resolve_exact_close :
    ∃ box, resolve ⟨9, 16⟩ 63000000000004 112000000000007 = .ok box ∧
      box = ⟨63000000000002, 112000000000006, 1, 0⟩ ∧
      Centred 63000000000004 box.width box.x ∧ Centred 112000000000007 box.height box.y ∧
      0 < box.width ∧ 0 < box.height := by
  obtain ⟨box, hbox, hexact, across, down, -, hpos⟩ :=
    @resolve_exact ⟨9, 16⟩ 63000000000004 112000000000007 (by decide)
      (by decide) (by decide) (by decide) (by decide) (by decide)
  have same : exactBox ⟨9, 16⟩ 63000000000004 112000000000007
      = ⟨63000000000002, 112000000000006, 1, 0⟩ := by decide
  exact ⟨box, hbox, hexact.trans same, across, down, hpos (by decide) (by decide)⟩

end ClipRender.Filter.Crop
