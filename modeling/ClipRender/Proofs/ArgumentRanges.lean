import ClipRender.Proofs.Binary64.Sums
import ClipRender.Proofs.ChainReading
import ClipRender.Proofs.NumberReading

set_option autoImplicit false

/-!
The numbers and colours that the engine reads in a chain of video filters. Rounding takes none of
them out of the range that its value was checked for: shares stay shares, the ends of a window stay
in order, and a multiplier of contrast or saturation has no sign and is at most 2.
-/

namespace ClipRender

theorem NearestEven.whole_bounds {q : ℚ} {n : ℤ} {places : Nat}
    (h : NearestEven (q * 10 ^ places) n) (k : ℤ) :
    ((k : ℚ) ≤ q → (k : ℚ) ≤ n / 10 ^ places) ∧ (q ≤ k → (n : ℚ) / 10 ^ places ≤ k) := by
  have hpos : (0 : ℚ) < 10 ^ places := by positivity
  have whole := NearestEven.of_whole (k * 10 ^ places)
  rw [Int.cast_mul, Int.cast_pow, Int.cast_ofNat] at whole
  constructor
  · intro hle
    rw [le_div_iff₀ hpos]
    exact_mod_cast whole.mono h (mul_le_mul_of_nonneg_right hle hpos.le)
  · intro hle
    rw [div_le_iff₀ hpos]
    exact_mod_cast h.mono whole (mul_le_mul_of_nonneg_right hle hpos.le)

namespace Filter

open Binary64 Decimal

/-- Plain digits that are read as the number. -/
structure Written (text : String) (q : ℚ) : Prop where
  digits : ∃ numeral : Numeral, text.toList = numeral.text ∧ numeral.Plain
  reads : number? text = some q

structure Printed (low high : ℚ) (text : String) (q : ℚ) : Prop extends Written text q where
  low_le : low ≤ q
  le_high : q ≤ high

/-- What an adjustment is added to 1 for, as it is written: the two roundings together are all that
it is off by, and there is no sign. -/
structure Multiplies (x : Binary64) (text : String) (q : ℚ) : Prop extends Printed 0 2 text q where
  unsigned : '-' ∉ text.toList
  places : ∃ whole places, text.toList = whole ++ '.' :: places ∧ places.length = 4
  near : |q - (1 + x.value)| ≤ 5 / 10 ^ 5 + 1 / 2 ^ 53

def isUpperHexDigit (c : Char) : Bool := c.isDigit || ('A' ≤ c && c ≤ 'F')

inductive ColorArgument (spec : EditSpec) : Argument → Prop
  | brightness {text : String} {q : ℚ} (h : Printed (-1) 1 text q)
    (hnear : |q - spec.brightness.value| ≤ 5 / 10 ^ 7) :
    ColorArgument spec ⟨some "brightness", text⟩
  | contrast {text : String} {q : ℚ} (h : Multiplies spec.contrast text q) :
    ColorArgument spec ⟨some "contrast", text⟩
  | saturation {text : String} {q : ℚ} (h : Multiplies spec.saturation text q) :
    ColorArgument spec ⟨some "saturation", text⟩

inductive TextArgument (overlay : TextOverlay) : Argument → Prop
  | font (file : String) : TextArgument overlay ⟨some "fontfile", file⟩
  | text : TextArgument overlay ⟨some "text", overlay.text⟩
  | unexpanded : TextArgument overlay ⟨some "expansion", "none"⟩
  | size {text : String} (h : Written text overlay.fontSize) (hpos : 0 < overlay.fontSize) :
    TextArgument overlay ⟨some "fontsize", text⟩
  | color {name : String} {digits : List Char} (hname : name = "fontcolor" ∨ name = "bordercolor")
    (hlength : digits.length = 6 ∨ digits.length = 8)
    (hdigits : ∀ d ∈ digits, isUpperHexDigit d = true) :
    TextArgument overlay ⟨some name, "0x" ++ String.ofList digits⟩
  | across {text : String} {q : ℚ} (h : Printed 0 1 text q) :
    TextArgument overlay ⟨some "x", "w*" ++ text⟩
  | centred : TextArgument overlay ⟨some "x", "(w-text_w)/2"⟩
  | down {text : String} {q : ℚ} (h : Printed 0 1 text q) :
    TextArgument overlay ⟨some "y", "h*" ++ text⟩
  | border : TextArgument overlay ⟨some "borderw", "2"⟩
  | window {start finish : Binary64} {first last : String} {p q : ℚ}
    (hstart : overlay.startSec = some start) (hfinish : overlay.endSec = some finish)
    (hfirst : Written first p) (hlast : Written last q) (hnonneg : 0 ≤ p) (horder : p ≤ q)
    (hnearStart : |p - start.value| ≤ 5 / 10 ^ 7) (hnearFinish : |q - finish.value| ≤ 5 / 10 ^ 7) :
    TextArgument overlay ⟨some "enable", "between(t," ++ first ++ "," ++ last ++ ")"⟩

/-- The adjustments that are not zero, in the order in which they are listed. -/
def changedColors (spec : EditSpec) : List String :=
  (if spec.brightness.value = 0 then [] else ["brightness"])
    ++ (if spec.contrast.value = 0 then [] else ["contrast"])
    ++ if spec.saturation.value = 0 then [] else ["saturation"]

/-- There is a filter for colours just where a colour changes, with one argument for each change,
and one filter for each drawn text. All their arguments are what they can be. -/
structure InRange (spec : EditSpec) (calls : List Call) : Prop where
  listed : (calls.filter fun call => call.filter = "eq").map
      (fun call => call.arguments.map Argument.name)
    = if changedColors spec = [] then [] else [(changedColors spec).map some]
  colors : ∀ call ∈ calls, call.filter = "eq" →
    ∀ argument ∈ call.arguments, ColorArgument spec argument
  texts : List.Forall₂ (fun overlay call => ∀ argument ∈ call.arguments, TextArgument overlay argument)
    spec.textOverlays (calls.filter fun call => call.filter = "drawtext")

section Numbers

variable {x y : Binary64}

theorem written_numberText (hx : x.isFinite = true) : ∃ q, Written (numberText x) q ∧
    |q - x.value| ≤ 5 / 10 ^ 7 ∧
      ∀ k : ℤ, ((k : ℚ) ≤ x.value → (k : ℚ) ≤ q) ∧ (x.value ≤ k → q ≤ k) := by
  obtain ⟨numeral, n, htext, hcanonical, -, hnearest, hread⟩ := exists_numeral hx
  have near := hnearest.quotient_near (by positivity)
  exact ⟨n / 10 ^ 6, ⟨⟨numeral, htext, hcanonical.toPlain⟩, hread⟩, by linarith,
    hnearest.whole_bounds⟩

theorem printed_numberText {low high : ℤ} (hx : x.Within low high) :
    ∃ q, Printed low high (numberText x) q ∧ |q - x.value| ≤ 5 / 10 ^ 7 := by
  obtain ⟨q, written, near, bounds⟩ := written_numberText hx.finite
  exact ⟨q, ⟨written, (bounds low).1 hx.low_le, (bounds high).2 hx.le_high⟩, near⟩

theorem printed_fixed {r : Nat} {hr : r < rankLimit} {high : ℤ}
    (hhigh : (finite false r hr).value ≤ high) :
    ∃ q, Printed 0 high (fixed 4 (finite false r hr)) q ∧
      '-' ∉ (fixed 4 (finite false r hr)).toList ∧
      (∃ whole places, (fixed 4 (finite false r hr)).toList = whole ++ '.' :: places ∧
        places.length = 4) ∧
      |q - (finite false r hr).value| ≤ 5 / 10 ^ 5 := by
  have nonneg : ∀ n : Nat, (0 : ℚ) ≤ n / 10 ^ 4 := fun n => by positivity
  have nearest := finite_nearest false hr (10 ^ 4)
  have read := number?_fixed (by decide : 0 < 4) false hr
  generalize hn : roundHalfEven (unitsAt r * 10 ^ 4) unitsPerOne = n at nearest read
  rw [if_neg Bool.false_ne_true, Nat.cast_pow, Nat.cast_ofNat] at nearest
  rw [signFactor, if_neg Bool.false_ne_true, one_mul] at read
  have text := Numeral.toList_fixed_eq false (by decide : 0 < 4) hr hn
  have plain := Numeral.plain_ofPlaces 4 false n
  have length := Numeral.length_ofPlaces false n (by decide : 0 < 4)
  have near := nearest.quotient_near (by positivity)
  have below := (nearest.whole_bounds high).2 hhigh
  rw [Int.cast_natCast] at near below
  have point : (Numeral.ofPlaces 4 false n).places ≠ [] := by
    rw [← List.length_pos_iff_ne_nil, length]
    decide
  have parts : (fixed 4 (finite false r hr)).toList = (Numeral.ofPlaces 4 false n).whole
      ++ '.' :: (Numeral.ofPlaces 4 false n).places := by
    rw [text, Numeral.text, Numeral.negative_ofPlaces, if_neg Bool.false_ne_true, if_neg point]
    rfl
  refine ⟨n / 10 ^ 4, ⟨⟨⟨_, text, plain⟩, read⟩, nonneg n, below⟩, fun hsign => ?_,
    ⟨_, _, parts, length⟩, by linarith⟩
  rw [parts, List.mem_append, List.mem_cons] at hsign
  rcases hsign with hwhole | hpoint | hplaces
  · exact absurd (plain.whole_digits _ hwhole) (by decide)
  · exact absurd hpoint (by decide)
  · exact absurd (plain.places_digits _ hplaces) (by decide)

theorem multiplies_fixed (hx : x.Within (-1) 1) : ∃ q, Multiplies x (fixed 4 (one + x)) q := by
  have hone : IsWhole 1 one := isWhole_ofNat (by decide)
  have hlow := hx.low_le
  have hhigh := hx.le_high
  obtain ⟨⟨r, hr, hsum, hunits⟩, near⟩ := hone.add_near (a := 1) hx.finite (by decide)
    (by rw [Nat.cast_one]; linarith) (by rw [Nat.cast_one]; linarith)
  have atMost : (finite false r hr).value ≤ ((2 : ℤ) : ℚ) := by
    rw [value_finite, signFactor, if_neg Bool.false_ne_true, one_mul, div_le_iff₀ units_cast_pos]
    generalize unitsPerOne = one at hunits ⊢
    exact_mod_cast hunits
  obtain ⟨q, printed, unsigned, places, rounded⟩ := printed_fixed atMost
  rw [hsum, Nat.cast_one] at near
  rw [hsum]
  refine ⟨q, ⟨by exact_mod_cast printed, unsigned, places, ?_⟩⟩
  calc |q - (1 + x.value)|
      ≤ |q - (finite false r hr).value| + |(finite false r hr).value - (1 + x.value)| :=
        abs_sub_le _ _ _
    _ ≤ 5 / 10 ^ 5 + 2 ^ 1 / 2 ^ 54 := add_le_add rounded near
    _ = 5 / 10 ^ 5 + 1 / 2 ^ 53 := by norm_num

theorem written_natural (n : Nat) : Written (toString n) n := by
  have digits : ∀ c ∈ Nat.toDigits 10 n, c.isDigit = true := fun _ => isDigit_of_mem_toDigits
  have plain : (⟨false, Nat.toDigits 10 n, []⟩ : Numeral).Plain := by
    refine ⟨Nat.toDigits_ne_nil, digits, fun hhead => ?_, nofun⟩
    rcases Nat.eq_zero_or_pos n with rfl | hpos
    · rw [Nat.toDigits_zero]
    · exact absurd hhead (head_toDigits hpos)
  have text : (toString n).toList = (⟨false, Nat.toDigits 10 n, []⟩ : Numeral).text := by
    rw [toList_toString, Numeral.text]
    simp
  refine ⟨⟨_, text, plain⟩, ?_⟩
  rw [number?, text, Numeral.read?_text plain, Option.map_some, Numeral.value_literal,
    List.append_nil, digitsValue_toDigits]
  simp [signFactor]

theorem written_positive {n : Int} (hn : 0 < n) : Written (toString n) n := by
  obtain ⟨k, rfl⟩ := Int.eq_ofNat_of_zero_le hn.le
  exact_mod_cast written_natural k

end Numbers

section Colors

theorem exists_upperChar {c : Char} (h : Color.isHexDigit c = true) :
    ∃ d, Text.upperChar c = [d] ∧ isUpperHexDigit d = true := by
  have table : ∀ n < 128, Color.isHexDigit (Char.ofNat n) = true →
      (Text.upperChar (Char.ofNat n)).length = 1 ∧
        (Text.upperChar (Char.ofNat n)).all isUpperHexDigit = true := by decide +kernel
  obtain ⟨hone, hupper⟩ := table c.toNat (PlainText.toNat_lt h) (by rwa [Char.ofNat_toNat])
  rw [Char.ofNat_toNat] at hone hupper
  obtain ⟨d, hd⟩ := List.length_eq_one_iff.mp hone
  exact ⟨d, hd, List.all_eq_true.mp hupper d (hd ▸ List.mem_cons_self)⟩

theorem exists_upperDigits {digits : List Char} (h : ∀ d ∈ digits, Color.isHexDigit d = true) :
    ∃ upper, digits.flatMap Text.upperChar = upper ∧ upper.length = digits.length ∧
      ∀ d ∈ upper, isUpperHexDigit d = true := by
  induction digits with
  | nil => exact ⟨[], rfl, rfl, nofun⟩
  | cons c digits ih =>
    obtain ⟨d, hd, hupper⟩ := exists_upperChar (h c List.mem_cons_self)
    obtain ⟨upper, hsame, hlength, hall⟩ := ih fun d hmem => h d (List.mem_cons_of_mem c hmem)
    refine ⟨d :: upper, ?_, ?_, List.forall_mem_cons.mpr ⟨hupper, hall⟩⟩
    · rw [List.flatMap_cons, hd, hsame, List.singleton_append]
    · rw [List.length_cons, hlength, List.length_cons]

theorem exists_engineText {overlay : TextOverlay} (h : overlay.WellFormed) :
    ∃ digits, Color.engineText overlay.color = "0x" ++ String.ofList digits ∧
      (digits.length = 6 ∨ digits.length = 8) ∧ ∀ d ∈ digits, isUpperHexDigit d = true := by
  obtain ⟨digits, hcolor, hlength, hdigits⟩ := h.color
  have bare : digits.dropWhile (fun c => decide (c = '#')) = digits := by
    cases digits with
    | nil => rfl
    | cons c digits =>
      refine List.dropWhile_cons_of_neg ?_
      rw [decide_eq_true_eq]
      rintro rfl
      exact absurd (hdigits _ List.mem_cons_self) (by decide)
  obtain ⟨upper, hupper, hsame, hall⟩ := exists_upperDigits hdigits
  refine ⟨upper, ?_, by rwa [hsame], hall⟩
  rw [Color.engineText, hcolor, List.dropWhile_cons_of_pos (by decide), bare, Text.upper,
    String.toList_ofList, hupper]

end Colors

section Arguments

variable {spec : EditSpec} {overlay : TextOverlay}

theorem adjustment_eq {x : Binary64} (hx : x.isFinite = true) (name value : String) :
    adjustment x name value = if x.value = 0 then [] else [⟨some name, value⟩] := by
  rw [adjustment]
  simp only [eq_iff hx (y := zero) rfl, value_zero]

theorem colorArguments_eq (h : spec.WellFormed) : colorArguments spec =
    (if spec.brightness.value = 0 then [] else [⟨some "brightness", numberText spec.brightness⟩])
      ++ (if spec.contrast.value = 0 then []
          else [⟨some "contrast", fixed 4 (one + spec.contrast)⟩])
      ++ if spec.saturation.value = 0 then []
          else [⟨some "saturation", fixed 4 (one + spec.saturation)⟩] := by
  rw [colorArguments, adjustment_eq h.brightness.finite, adjustment_eq h.contrast.finite,
    adjustment_eq h.saturation.finite]

theorem colorArguments_names (h : spec.WellFormed) :
    (colorArguments spec).map Argument.name = (changedColors spec).map some := by
  rw [colorArguments_eq h, changedColors]
  split <;> split <;> split <;> rfl

theorem colorArgument (h : spec.WellFormed) :
    ∀ argument ∈ colorArguments spec, ColorArgument spec argument := by
  have only : ∀ {p : Prop} [Decidable p] {x argument : Argument},
      argument ∈ (if p then [] else [x]) → argument = x := by
    intro p _ x argument hmem
    split at hmem
    · cases hmem
    · exact List.mem_singleton.mp hmem
  intro argument hmem
  rw [colorArguments_eq h, List.mem_append, List.mem_append] at hmem
  rcases hmem with (hmem | hmem) | hmem
  · obtain ⟨q, printed, near⟩ :=
      @printed_numberText spec.brightness (-1) 1 (by exact_mod_cast h.brightness)
    rw [only hmem]
    exact .brightness (by exact_mod_cast printed) near
  · obtain ⟨q, multiplies⟩ := multiplies_fixed h.contrast
    rw [only hmem]
    exact .contrast multiplies
  · obtain ⟨q, multiplies⟩ := multiplies_fixed h.saturation
    rw [only hmem]
    exact .saturation multiplies

theorem printed_share {x : Binary64} (hx : x.Within 0 1) : ∃ q, Printed 0 1 (numberText x) q := by
  obtain ⟨q, printed, -⟩ := @printed_numberText x 0 1 (by exact_mod_cast hx)
  exact ⟨q, by exact_mod_cast printed⟩

theorem printed_default : Printed 0 1 "0.85" (17 / 20) := by
  have literal : Literal.read? "0.85".toList = some ⟨false, 85, -2⟩ := by decide
  have plain : (⟨false, ['0'], ['8', '5']⟩ : Numeral).Plain :=
    ⟨List.cons_ne_nil _ _, List.all_eq_true.mp rfl, fun _ => rfl, List.all_eq_true.mp rfl⟩
  refine ⟨⟨⟨_, by decide, plain⟩, ?_⟩, by norm_num, by norm_num⟩
  rw [number?, literal]
  norm_num [Literal.value, signFactor]

theorem textArgument_window (h : overlay.WellFormed) :
    ∀ argument ∈ windowArguments overlay, TextArgument overlay argument := by
  intro argument hmem
  unfold windowArguments TextOverlay.window? at hmem
  cases hstart : overlay.startSec with
  | none => simp [hstart] at hmem
  | some start =>
    cases hfinish : overlay.endSec with
    | none => simp [hstart, hfinish] at hmem
    | some finish =>
      obtain ⟨hfiniteStart, hnonneg⟩ := h.startSec start hstart
      obtain ⟨hfiniteFinish, -⟩ := h.endSec finish hfinish
      have horder := h.window start hstart finish hfinish
      obtain ⟨p, first, nearFirst, bounds⟩ := written_numberText hfiniteStart
      obtain ⟨q, last, nearLast, -⟩ := written_numberText hfiniteFinish
      have inOrder : p ≤ q := numberText_mono hfiniteStart hfiniteFinish
        ((le_iff hfiniteStart hfiniteFinish).mpr horder.le) first.reads last.reads
      have low := (bounds 0).1 (by exact_mod_cast hnonneg)
      simp only [hstart, hfinish, List.mem_singleton] at hmem
      rw [hmem]
      exact .window hstart hfinish first last (by exact_mod_cast low) inOrder nearFirst nearLast

theorem textArgument_font (fontFile : Option String) :
    ∀ argument ∈ fontArguments fontFile, TextArgument overlay argument := by
  intro argument hmem
  rw [fontArguments.eq_def] at hmem
  split at hmem
  · split at hmem
    · cases hmem
    · rw [List.mem_singleton.mp hmem]
      exact .font _
  · cases hmem

theorem textArgument_border (h : overlay.WellFormed) :
    ∀ argument ∈ borderArguments overlay, TextArgument overlay argument := by
  obtain ⟨digits, hcolor, hlength, hdigits⟩ := exists_engineText h
  intro argument hmem
  rw [borderArguments, hcolor] at hmem
  split at hmem
  · rcases List.mem_cons.mp hmem with rfl | hmem
    · exact .border
    · rw [List.mem_singleton.mp hmem]
      exact .color (.inr rfl) hlength hdigits
  · cases hmem

theorem placeText_cases {share : Option Binary64} (h : ∀ x ∈ share, x.Within 0 1)
    (side otherwise : String) : placeText side share otherwise = otherwise ∨
      ∃ text q, placeText side share otherwise = side ++ "*" ++ text ∧ Printed 0 1 text q := by
  cases share with
  | none => exact .inl rfl
  | some x =>
    obtain ⟨q, printed⟩ := printed_share (h x rfl)
    exact .inr ⟨_, q, rfl, printed⟩

theorem textArgument (fontFile : Option String) (h : overlay.WellFormed) :
    ∀ argument ∈ (overlayCall fontFile overlay).arguments, TextArgument overlay argument := by
  obtain ⟨digits, hcolor, hlength, hdigits⟩ := exists_engineText h
  have across : TextArgument overlay ⟨some "x", placeText "w" overlay.x "(w-text_w)/2"⟩ := by
    rcases placeText_cases h.x "w" "(w-text_w)/2" with hplace | ⟨text, q, hplace, printed⟩
    · rw [hplace]
      exact .centred
    · rw [hplace]
      exact .across printed
  have down : TextArgument overlay ⟨some "y", placeText "h" overlay.y "h*0.85"⟩ := by
    rcases placeText_cases h.y "h" "h*0.85" with hplace | ⟨text, q, hplace, printed⟩
    · rw [hplace]
      exact .down printed_default
    · rw [hplace]
      exact .down printed
  have listed : ∀ argument ∈ [⟨some "text", overlay.text⟩, ⟨some "expansion", "none"⟩,
      ⟨some "fontsize", toString overlay.fontSize⟩,
      ⟨some "fontcolor", Color.engineText overlay.color⟩,
      ⟨some "x", placeText "w" overlay.x "(w-text_w)/2"⟩,
      ⟨some "y", placeText "h" overlay.y "h*0.85"⟩], TextArgument overlay argument := by
    rw [hcolor]
    simp only [List.forall_mem_cons]
    exact ⟨.text, .unexpanded, .size (written_positive h.fontSize) h.fontSize,
      .color (.inl rfl) hlength hdigits, across, down, nofun⟩
  intro argument hmem
  rw [overlayCall, List.mem_append, List.mem_append, List.mem_append] at hmem
  rcases hmem with ((hmem | hmem) | hmem) | hmem
  · exact textArgument_font fontFile argument hmem
  · exact listed argument hmem
  · exact textArgument_border h argument hmem
  · exact textArgument_window h argument hmem

end Arguments

section Calls

variable (fontFile : Option String) (spec : EditSpec)

theorem filter_editCalls (name : String) :
    ((editCalls fontFile spec).filter fun call => call.filter = name)
      = (if "crop" = name then ((ratioOf spec.aspectRatio).map cropCall).toList else [])
        ++ (if "eq" = name then colorCalls spec else [])
        ++ (if "setpts" = name then speedCalls spec else [])
        ++ if "drawtext" = name then spec.textOverlays.map (overlayCall fontFile) else [] := by
  have part : ∀ {calls : List Call} {own : String}, (∀ call ∈ calls, call.filter = own) →
      (calls.filter fun call => call.filter = name) = if own = name then calls else [] := by
    intro calls own hown
    split
    · next hname =>
      refine List.filter_eq_self.mpr fun call hmem => ?_
      exact decide_eq_true ((hown call hmem).trans hname)
    · next hname =>
      refine List.filter_eq_nil_iff.mpr fun call hmem hcall => ?_
      exact hname ((hown call hmem).symm.trans (of_decide_eq_true hcall))
  have crop : ∀ call ∈ ((ratioOf spec.aspectRatio).map cropCall).toList, call.filter = "crop" := by
    cases ratioOf spec.aspectRatio <;> simp [cropCall]
  have color : ∀ call ∈ colorCalls spec, call.filter = "eq" := by
    rw [colorCalls]
    split <;> simp
  have speed : ∀ call ∈ speedCalls spec, call.filter = "setpts" := by
    rw [speedCalls]
    split <;> simp
  have texts : ∀ call ∈ spec.textOverlays.map (overlayCall fontFile), call.filter = "drawtext" := by
    simp [overlayCall]
  rw [editCalls, List.filter_append, List.filter_append, List.filter_append, part crop, part color,
    part speed, part texts]

theorem filter_eq : ((editCalls fontFile spec).filter fun call => call.filter = "eq")
    = colorCalls spec := by
  simp [filter_editCalls]

theorem filter_drawtext : ((editCalls fontFile spec).filter fun call => call.filter = "drawtext")
    = spec.textOverlays.map (overlayCall fontFile) := by
  simp [filter_editCalls]

end Calls

namespace Sample

/-- All is at the end of its range, and the window is too short to be seen. -/
def extremeEdits : Json.Value :=
  .object [("brightness", .integer (-1)), ("contrast", .integer (-1)), ("saturation", .integer 1),
    ("textOverlays", .array [.object [("id", .string "a"), ("text", .string "t"),
      ("x", .integer 1), ("color", .string "abcdef"), ("startSec", .integer 0),
      ("endSec", .number (ofQuotient 1 10000000))]])]

def extremeSpec : EditSpec :=
  { EditSpec.untouched with
    brightness := ofInt (-1)
    contrast := ofInt (-1)
    saturation := ofInt 1
    textOverlays := [⟨"a", "t", some (ofInt 1), none, 36, "#abcdef", some (ofInt 0),
      some (ofQuotient 1 10000000), false⟩] }

end Sample

end Filter

end ClipRender
