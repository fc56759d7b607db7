import ClipRender.Proofs.Binary64.Wholes
import ClipRender.Proofs.ChainReading
import ClipRender.Proofs.FormulaReading

set_option autoImplicit false

/-!
The two ways to crop a frame: the expressions that the engine reads and evaluates, and the box that
is computed for a known size. For every ratio and every size below `2 ^ 53` both come to one box,
and neither fails.
-/

namespace ClipRender.Filter

open Binary64

theorem isWhole_two : IsWhole 2 Crop.two := by
  have htwo := isWhole_ofInt (by decide : (0 : Int) ≤ 2) (by decide)
  rw [Crop.two, ofNat_eq_ofInt]
  exact htwo

theorem truncate_finite (s : Bool) {r : Nat} (hr : r < rankLimit) :
    (finite s r hr).truncate
      = .ok (if s then -((unitsAt r / unitsPerOne : Nat) : Int)
        else (unitsAt r / unitsPerOne : Nat)) := by
  rw [truncate, toWhole]

theorem isWhole_wholeNumber {a : Nat} {x : Binary64} (hx : Sized false a x) :
    ∃ n : Nat, x.truncate = .ok n ∧ IsWhole n (wholeNumber x) ∧ n ≤ 2 ^ a := by
  obtain ⟨r, hr, rfl, hru⟩ := hx
  obtain ⟨k, hk⟩ := exists_rank_whole r
  have hle : k ≤ r := by
    rw [← unitsAt_strictMono.le_iff_le, hk]
    exact Nat.div_mul_le_self _ _
  have hexact := ofUnits_exact false Nat.one_pos k
  rw [Nat.mul_one, hk, ofRank, dif_pos (hle.trans_lt hr)] at hexact
  refine ⟨unitsAt r / unitsPerOne, ?_, ⟨k, hle.trans_lt hr, ?_, hk⟩, ?_⟩
  · rw [truncate_finite]
    rfl
  · rw [wholeNumber, hexact]
  · exact Nat.div_le_of_le_mul (by rwa [Nat.mul_comm])

namespace Crop

/-- One step that does not fail, at a time: what follows stays closed. -/
theorem ok_bind {α β : Type} (a : α) (next : α → Except Failure β) :
    (Except.ok a >>= next) = next a := rfl

theorem evenPartOf_eq {a : Nat} {x : Binary64} (hx : Sized false a x) (ha : a + 1 < 1024) :
    ∃ n : Nat, evenPartOf x = .ok n ∧ IsWhole n (wholeNumber (x / two) * two) ∧
      n ≤ 2 ^ (a + 1) := by
  obtain ⟨half, htruncate, hwhole, hle⟩ :=
    isWhole_wholeNumber (hx.div isWhole_two (by decide) (by omega))
  have hdouble : half * 2 ≤ 2 ^ (a + 1) := by
    rw [Nat.pow_succ]
    omega
  refine ⟨half * 2, ?_, hwhole.mul_two isWhole_two hdouble ha, hdouble⟩
  rw [evenPartOf, wholePart, htruncate]
  rfl

section Sides

variable {n m : Int} {x y : Binary64}

theorem number_eq (hn : 0 < n ∧ n < 2 ^ 53) : number n = .ok (ofInt n) := by
  have hfinite : (ofInt n).isFinite = true := isFinite_ofInt (by omega)
  simp [number, hfinite]

theorem isWhole_side (hn : 0 < n ∧ n < 2 ^ 53) : IsWhole n.toNat (ofInt n) :=
  isWhole_ofInt hn.1.le hn.2.le

theorem sized_side (hn : 0 < n ∧ n < 2 ^ 53) : Sized false 53 (ofInt n) :=
  (isWhole_side hn).sized (by omega)

theorem quotient_eq {k : Nat} (hy : IsWhole k y) (hk : 0 < k) : quotient x y = .ok (x / y) := by
  have hne : Binary64.eq y Binary64.zero = false := by
    obtain ⟨r, hr, rfl, hunits⟩ := hy
    have hr := rank_pos hk hunits
    simp [Binary64.eq, Binary64.compare, ordinal?, Binary64.zero, signedZero]
    omega
  simp [quotient, hne]

theorem wholeQuotient_eq (hn : 0 < n ∧ n < 2 ^ 53) (hm : 0 < m ∧ m < 2 ^ 53) :
    wholeQuotient n m = .ok (ofInt n / ofInt m) := by
  have hpos : 0 < m.toNat := by omega
  have hquotient := (isWhole_side hn).div (isWhole_side hm) hpos
  rw [Int.toNat_of_nonneg hn.1.le, Int.toNat_of_nonneg hm.1.le] at hquotient
  have hfinite : (ofInt n / ofInt m).isFinite = true :=
    ((sized_side hn).div (isWhole_side hm) hpos (by decide)).isFinite
  rw [wholeQuotient, if_neg hm.1.ne', ← hquotient]
  simp [hfinite]

theorem scaleBy_eq (hn : 0 < n ∧ n < 2 ^ 53) (hm : 0 < m ∧ m < 2 ^ 53) :
    scaleBy x n m = .ok (x * ofInt n / ofInt m) := by
  rw [scaleBy, number_eq hn, ok_bind, number_eq hm, ok_bind]
  exact quotient_eq (isWhole_side hm) (by omega)

theorem sized_scaled (hx : Sized false 53 x) (hn : 0 < n ∧ n < 2 ^ 53) (hm : 0 < m ∧ m < 2 ^ 53) :
    Sized false 106 (x * ofInt n / ofInt m) :=
  (hx.mul (sized_side hn) (by decide)).div (isWhole_side hm) (by omega) (by decide)

/-- Half of what a part leaves of a whole has a whole part of its own. -/
theorem marginOf_eq {a k : Nat} (hx : Sized false a x) (ha : a < 1024) (hy : IsWhole k y)
    (hk : k ≤ 2 ^ a) : ∃ i, marginOf x k = .ok i ∧ ((x - y) / two).truncate = .ok i := by
  obtain ⟨s, hsub⟩ := hx.sub (hy.sized hk) ha
  obtain ⟨r, hr, hhalf, -⟩ := hsub.div isWhole_two (by decide) ha
  have hnumber : number k = .ok y := by
    have hfinite := (hy.sized hk).isFinite
    rw [hy.eq_ofInt] at hfinite ⊢
    simp [number, hfinite]
  rw [marginOf, hnumber, ok_bind, wholePart, hhalf, truncate_finite]
  exact ⟨_, rfl, rfl⟩

end Sides

section Formulas

variable (iw ih outWidth outHeight : Binary64)

theorem frameSizes_inWidth : frameSizes iw ih outWidth outHeight .inWidth = iw := rfl

theorem frameSizes_inHeight : frameSizes iw ih outWidth outHeight .inHeight = ih := rfl

theorem frameSizes_outWidth : frameSizes iw ih outWidth outHeight .outWidth = outWidth := rfl

theorem frameSizes_outHeight : frameSizes iw ih outWidth outHeight .outHeight = outHeight := rfl

variable (sizes : FrameSize → Binary64)

theorem eval_evenPart (e : Expression) :
    (evenPart e).formula.eval sizes = wholeNumber (e.formula.eval sizes / two) * two := rfl

theorem eval_number {n : Int} (hn : 0 < n ∧ n < 2 ^ 53) :
    (Expression.number n).formula.eval sizes = ofInt n := by
  rw [Expression.formula, Formula.eval, ofNat_eq_ofInt, Int.toNat_of_nonneg hn.1.le]

theorem eval_scaled (which : FrameSize) {n m : Int} (hn : 0 < n ∧ n < 2 ^ 53)
    (hm : 0 < m ∧ m < 2 ^ 53) :
    (scaled which n m).formula.eval sizes = sizes which * ofInt n / ofInt m := by
  rw [← eval_number sizes hn, ← eval_number sizes hm]
  rfl

theorem eval_margin (whole part : FrameSize) :
    (margin whole part).formula.eval sizes = (sizes whole - sizes part) / two := rfl

theorem eval_choose_greater (a b yes no : Formula) :
    (Formula.choose (.greater a b) yes no).eval sizes
      = if Binary64.lt (b.eval sizes) (a.eval sizes) then yes.eval sizes else no.eval sizes := by
  have hone : Binary64.eq Binary64.one Binary64.zero = false := by decide +kernel
  simp only [Formula.eval]
  split
  · rw [hone]
    rfl
  · rfl

theorem eval_ifWider {ratio : Ratio} (hw : 0 < ratio.width ∧ ratio.width < 2 ^ 53)
    (hh : 0 < ratio.height ∧ ratio.height < 2 ^ 53) (wider taller : Expression) :
    (ifWider ratio wider taller).formula.eval sizes
      = if Binary64.lt (ofInt ratio.width / ofInt ratio.height) (sizes .inWidth / sizes .inHeight)
        then wider.formula.eval sizes else taller.formula.eval sizes := by
  rw [← eval_number sizes hw, ← eval_number sizes hh]
  exact eval_choose_greater sizes _ _ _ _

end Formulas

variable {ratio : Ratio} (hw : 0 < ratio.width ∧ ratio.width < 2 ^ 53)
  (hh : 0 < ratio.height ∧ ratio.height < 2 ^ 53) {iw ih : Int} (hiw : 0 < iw ∧ iw < 2 ^ 53)
  (hih : 0 < ih ∧ ih < 2 ^ 53)

include hw hh hiw hih

theorem size_eq (sizes : FrameSize → Binary64) (hwidth : sizes .inWidth = ofInt iw)
    (hheight : sizes .inHeight = ofInt ih) :
    ∃ w h : Nat, size ratio (ofInt iw) (ofInt ih) = .ok (↑w, ↑h) ∧
      IsWhole w ((width ratio).formula.eval sizes) ∧ w ≤ 2 ^ 107 ∧
      IsWhole h ((height ratio).formula.eval sizes) ∧ h ≤ 2 ^ 107 := by
  rw [size, quotient_eq (isWhole_side hih) (by omega), ok_bind, wholeQuotient_eq hw hh, ok_bind,
    width, height, eval_ifWider sizes hw hh, eval_ifWider sizes hw hh, eval_evenPart, eval_evenPart,
    eval_evenPart, eval_evenPart, eval_scaled sizes _ hw hh, eval_scaled sizes _ hh hw]
  have hsame : ∀ which : FrameSize, (Expression.size which).formula.eval sizes = sizes which :=
    fun _ => rfl
  rw [hsame, hsame, hwidth, hheight]
  -- Both sides ask the same question of the same quotients, so they take the same branch.
  split
  · obtain ⟨w, heven, hwhole, hle⟩ :=
      evenPartOf_eq (sized_scaled (sized_side hih) hw hh) (by decide)
    obtain ⟨h, heven', hwhole', hle'⟩ :=
      evenPartOf_eq ((sized_side hih).mono (by decide : 53 ≤ 106)) (by decide)
    refine ⟨w, h, ?_, hwhole, hle, hwhole', hle'⟩
    rw [scaleBy_eq hw hh, ok_bind, heven, ok_bind, heven', ok_bind]
    rfl
  · obtain ⟨w, heven, hwhole, hle⟩ :=
      evenPartOf_eq ((sized_side hiw).mono (by decide : 53 ≤ 106)) (by decide)
    obtain ⟨h, heven', hwhole', hle'⟩ :=
      evenPartOf_eq (sized_scaled (sized_side hiw) hh hw) (by decide)
    refine ⟨w, h, ?_, hwhole, hle, hwhole', hle'⟩
    rw [heven, ok_bind, scaleBy_eq hh hw, ok_bind, heven', ok_bind]
    rfl

end Crop

section Render

theorem readChain?_render (ratio : Ratio) :
    Call.readChain? (Crop.render ratio).toList = some [cropCall ratio] := by
  have hcall := readChain?_intercalate (.cons (readsAsCall_crop ratio) .nil) (by simp)
  simpa [Node.render] using hcall

theorem unsigned_margin (whole part : FrameSize) : (Crop.margin whole part).Unsigned := by
  simp [Crop.margin, Expression.Unsigned]

variable {ratio : Ratio} (hw : 0 ≤ ratio.width) (hh : 0 ≤ ratio.height)

include hw hh

theorem unsigned_width : (Crop.width ratio).Unsigned := by
  simp [Crop.width, Crop.ifWider, Crop.evenPart, Crop.scaled, Expression.Unsigned, hw, hh]

theorem unsigned_height : (Crop.height ratio).Unsigned := by
  simp [Crop.height, Crop.ifWider, Crop.evenPart, Crop.scaled, Expression.Unsigned, hw, hh]

end Render

/-- The size is computed first, and the place from it. -/
theorem exists_region {chain a b c d : String} {width height x y : Formula}
    (hchain : Call.readChain? chain.toList
      = some [⟨"crop", [⟨none, a⟩, ⟨none, b⟩, ⟨none, c⟩, ⟨none, d⟩]⟩])
    (hwidth : Formula.read? a = some width) (hheight : Formula.read? b = some height)
    (hx : Formula.read? c = some x) (hy : Formula.read? d = some y) (iw ih : Binary64) :
    ∃ region, cropRegion? chain iw ih = some region ∧
      region.width = width.eval (frameSizes iw ih .nan .nan) ∧
      region.height = height.eval (frameSizes iw ih region.width .nan) ∧
      region.x = x.eval (frameSizes iw ih region.width region.height) ∧
      region.y = y.eval (frameSizes iw ih region.width region.height) := by
  rw [cropRegion?, hchain]
  simp only [hwidth, hheight, hx, hy]
  exact ⟨_, rfl, rfl, rfl, rfl, rfl⟩

/-- The engine's formulas and the box that is computed agree, for every ratio and every frame. -/
theorem render_agrees_resolve {ratio : Ratio} {iw ih : Int}
    (hw : 0 < ratio.width ∧ ratio.width < 2 ^ 53) (hh : 0 < ratio.height ∧ ratio.height < 2 ^ 53)
    (hiw : 0 < iw ∧ iw < 2 ^ 53) (hih : 0 < ih ∧ ih < 2 ^ 53) :
    ∃ box region, Crop.resolve ratio iw ih = .ok box ∧
      cropRegion? (Crop.render ratio) (ofInt iw) (ofInt ih) = some region ∧
      region.width.toInt? = some box.width ∧ region.height.toInt? = some box.height ∧
      region.x.truncate = .ok box.x ∧ region.y.truncate = .ok box.y := by
  have across : (Crop.margin .inWidth .outWidth).text = "(iw-out_w)/2" := by decide +kernel
  have down : (Crop.margin .inHeight .outHeight).text = "(ih-out_h)/2" := by decide +kernel
  have hx := Formula.read?_text (unsigned_margin .inWidth .outWidth)
  have hy := Formula.read?_text (unsigned_margin .inHeight .outHeight)
  rw [across] at hx
  rw [down] at hy
  obtain ⟨region, hregion, hrw, hrh, hrx, hry⟩ :=
    exists_region (readChain?_render ratio) (Formula.read?_text (unsigned_width hw.1.le hh.1.le))
      (Formula.read?_text (unsigned_height hw.1.le hh.1.le)) hx hy (ofInt iw) (ofInt ih)
  rw [Crop.eval_margin, Crop.frameSizes_inWidth, Crop.frameSizes_outWidth] at hrx
  rw [Crop.eval_margin, Crop.frameSizes_inHeight, Crop.frameSizes_outHeight] at hry
  obtain ⟨w, h', hsize, hwidth, hw107, -, -⟩ :=
    Crop.size_eq hw hh hiw hih _ (Crop.frameSizes_inWidth _ _ .nan .nan)
      (Crop.frameSizes_inHeight _ _ .nan .nan)
  obtain ⟨w', h, hsize', -, -, hheight, hh107⟩ :=
    Crop.size_eq hw hh hiw hih _ (Crop.frameSizes_inWidth _ _ region.width .nan)
      (Crop.frameSizes_inHeight _ _ region.width .nan)
  rw [← hrw] at hwidth
  rw [← hrh] at hheight
  -- the size does not depend on what is known of the crop
  have hsame := Except.ok.inj (hsize.symm.trans hsize')
  rw [(Prod.mk.inj hsame).2] at hsize
  obtain ⟨x, hmargin, htruncate⟩ :=
    Crop.marginOf_eq ((Crop.sized_side hiw).mono (by decide : 53 ≤ 107)) (by decide) hwidth hw107
  obtain ⟨y, hmargin', htruncate'⟩ :=
    Crop.marginOf_eq ((Crop.sized_side hih).mono (by decide : 53 ≤ 107)) (by decide) hheight hh107
  refine ⟨⟨w, h, x, y⟩, region, ?_, hregion, hwidth.toInt?, hheight.toInt?, ?_, ?_⟩
  · rw [Crop.resolve, Crop.number_eq hiw, Crop.ok_bind, Crop.number_eq hih, Crop.ok_bind, hsize,
      Crop.ok_bind]
    simp only [hmargin, Crop.ok_bind, hmargin']
    rfl
  · rw [hrx]
    exact htruncate
  · rw [hry]
    exact htruncate'

/-- A tall frame that is as wide as the ratio asks for, but for one pixel. -/
theorem render_agrees_resolve_portrait :
    ∃ box region, Crop.resolve ⟨9, 16⟩ 1081 1920 = .ok box ∧
      cropRegion? (Crop.render ⟨9, 16⟩) (ofInt 1081) (ofInt 1920) = some region ∧
      region.width.toInt? = some box.width ∧ region.height.toInt? = some box.height ∧
      region.x.truncate = .ok box.x ∧ region.y.truncate = .ok box.y :=
  render_agrees_resolve (by decide) (by decide) (by decide) (by decide)

end ClipRender.Filter
