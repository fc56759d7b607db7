import ClipRender.Decimal.Numeral
import ClipRender.Filter.Number
import ClipRender.Proofs.Binary64.HalfEven
import ClipRender.Proofs.DecimalReading
import Mathlib.Data.List.DropRight

set_option autoImplicit false

/-!
Numbers in filter options, read back. What is written is the one form of the number rounded to six
places, and the numbers written are in the order of the numbers.
-/

namespace ClipRender

open Binary64

namespace Filter

section Trailing

variable {c d : Char} {cs : List Char}

theorem dropTrailing_eq (c : Char) (cs : List Char) :
    dropTrailing c cs = cs.rdropWhile (· = c) := rfl

theorem getLast?_dropTrailing (c : Char) (cs : List Char) :
    (dropTrailing c cs).getLast? ≠ some c := by
  intro hlast
  have hne : cs.rdropWhile (· = c) ≠ [] := by
    intro hnil
    rw [dropTrailing_eq, hnil] at hlast
    cases hlast
  have hkept := List.rdropWhile_last_not _ cs hne
  rw [dropTrailing_eq, List.getLast?_eq_getLast_of_ne_nil hne, Option.some_inj] at hlast
  rw [hlast] at hkept
  simp at hkept

theorem dropTrailing_self (h : cs.getLast? ≠ some c) : dropTrailing c cs = cs := by
  rw [dropTrailing_eq, List.rdropWhile_eq_self_iff]
  intro hne hlast
  rw [List.getLast?_eq_getLast_of_ne_nil hne] at h
  exact h (congrArg some (of_decide_eq_true hlast))

theorem dropTrailing_concat (c : Char) (cs : List Char) (x : Char) :
    dropTrailing c (cs ++ [x]) = if x = c then dropTrailing c cs else cs ++ [x] := by
  rw [dropTrailing_eq, dropTrailing_eq, List.rdropWhile_concat]
  simp only [decide_eq_true_eq]

theorem dropTrailing_past (hd : d ≠ c) (front cs : List Char) :
    dropTrailing c (front ++ d :: cs) = front ++ d :: dropTrailing c cs := by
  induction cs using List.reverseRecOn with
  | nil => rw [dropTrailing_concat, if_neg hd, dropTrailing_eq, List.rdropWhile_nil]
  | append_singleton cs x ih =>
    rw [← List.cons_append, ← List.append_assoc, dropTrailing_concat, dropTrailing_concat, ih]
    split
    · rfl
    · rw [List.append_assoc, List.cons_append]

theorem exists_dropped (c : Char) (cs : List Char) :
    ∃ k, cs = dropTrailing c cs ++ List.replicate k c := by
  have dropped : ∀ x ∈ cs.rtakeWhile (fun x => decide (x = c)), x = c := by
    intro x hx
    have hsame := List.mem_rtakeWhile_imp hx
    exact of_decide_eq_true hsame
  refine ⟨(cs.rtakeWhile fun x => decide (x = c)).length, ?_⟩
  rw [← List.eq_replicate_of_mem dropped, dropTrailing_eq, List.rdropWhile_append_rtakeWhile]

end Trailing

end Filter

namespace Decimal

open Filter

namespace Numeral

section Reading

variable {n : Numeral}

theorem read?_text (h : n.Plain) : Literal.read? n.text = some n.literal := by
  rw [text, literal]
  by_cases hplaces : n.places = []
  · rw [if_pos hplaces, hplaces, List.append_nil, List.append_nil,
      read?_whole h.whole_digits h.whole_ne_nil]
    rfl
  · rw [if_neg hplaces, read?_withPoint h.whole_digits h.whole_ne_nil h.places_digits]

theorem value_literal (n : Numeral) : n.literal.value
    = signFactor n.negative * (digitsValue (n.whole ++ n.places) / 10 ^ n.places.length) := by
  rw [Literal.value, literal, zpow_neg, zpow_natCast, ← div_eq_mul_inv]

theorem getLast?_digits {cs : List Char} {c : Char} (hdigits : ∀ d ∈ cs, d.isDigit = true)
    (hc : c.isDigit = false) : cs.getLast? ≠ some c := by
  intro hlast
  rw [hdigits c (List.mem_of_getLast? hlast)] at hc
  cases hc

end Reading

def shortened (n : Numeral) : Numeral := { n with places := dropTrailing '0' n.places }

/-- Zero has no sign, and nothing behind the point is left of it. -/
def unsigned (n : Numeral) : Numeral :=
  if n.whole = ['0'] ∧ n.places = [] then { n with negative := false } else n

section Forms

variable {n : Numeral} (h : n.Plain)

include h

theorem Plain.shortened : n.shortened.Plain where
  whole_ne_nil := h.whole_ne_nil
  whole_digits := h.whole_digits
  whole_head := h.whole_head
  places_digits := fun c hc => h.places_digits c ((List.rdropWhile_prefix _ _).subset hc)

/-- The point goes with the last of the places. -/
theorem text_shortened (hplaces : n.places ≠ []) :
    dropTrailing '.' (dropTrailing '0' n.text) = n.shortened.text := by
  have zeros : dropTrailing '0' n.text
      = (if n.negative then ['-'] else []) ++ n.whole ++ '.' :: n.shortened.places := by
    rw [text, if_neg hplaces]
    exact dropTrailing_past (by decide) _ _
  rw [zeros, text]
  by_cases hnone : n.shortened.places = []
  · have front : ((if n.negative then ['-'] else []) ++ n.whole).getLast? ≠ some '.' := by
      rw [List.getLast?_append_of_ne_nil _ h.whole_ne_nil]
      exact getLast?_digits h.whole_digits (by decide)
    rw [hnone, dropTrailing_concat, if_pos rfl, if_pos rfl, List.append_nil,
      dropTrailing_self front]
    rfl
  · have last : ('.' :: n.shortened.places).getLast? ≠ some '.' := by
      rw [← List.singleton_append, List.getLast?_append_of_ne_nil _ hnone]
      exact getLast?_digits h.shortened.places_digits (by decide)
    rw [if_neg hnone, dropTrailing_self]
    · rfl
    · rwa [List.getLast?_append_of_ne_nil _ (List.cons_ne_nil _ _)]

omit h in
theorem value_shortened : n.shortened.literal.value = n.literal.value := by
  obtain ⟨k, hk⟩ := exists_dropped '0' n.places
  have digits : digitsValue (n.whole ++ n.places)
      = digitsValue (n.whole ++ n.shortened.places) * 10 ^ k := by
    rw [hk, ← List.append_assoc, digitsValue_append, digitsValue_zeros, List.length_replicate]
    rfl
  have length : n.places.length = n.shortened.places.length + k := by
    rw [hk, List.length_append, List.length_replicate]
    rfl
  rw [value_literal, value_literal, digits, length, pow_add, Nat.cast_mul, Nat.cast_pow,
    Nat.cast_ofNat, mul_div_mul_right _ _ (by positivity)]
  rfl

theorem Plain.unsigned : n.unsigned.Plain := by
  rw [Numeral.unsigned]
  split
  · exact ⟨h.whole_ne_nil, h.whole_digits, h.whole_head, h.places_digits⟩
  · exact h

omit h in
theorem length_places_le : n.shortened.unsigned.places.length ≤ n.places.length := by
  have kept := (List.rdropWhile_prefix (· = '0') n.places).length_le
  rw [Numeral.unsigned]
  split
  · exact kept
  · exact kept

theorem Plain.canonical : n.shortened.unsigned.Canonical where
  toPlain := h.shortened.unsigned
  places_last := by
    rw [Numeral.unsigned]
    split
    · exact getLast?_dropTrailing '0' n.places
    · exact getLast?_dropTrailing '0' n.places
  zero_unsigned := by
    rw [Numeral.unsigned]
    split
    · exact fun _ _ => rfl
    · next hsome => exact fun hwhole hplaces => absurd ⟨hwhole, hplaces⟩ hsome

omit h in
theorem value_unsigned : n.unsigned.literal.value = n.literal.value := by
  rw [Numeral.unsigned]
  split
  · next hzero =>
    have none : digitsValue ['0'] = 0 := by decide
    rw [value_literal, value_literal, hzero.1, hzero.2, List.append_nil, none]
    simp
  · rfl

theorem zero_of_text (htext : n.text = ['-', '0']) : n.whole = ['0'] ∧ n.places = [] := by
  obtain ⟨c, rest, hwhole⟩ := List.exists_cons_of_ne_nil h.whole_ne_nil
  have hdigit := h.whole_digits c (hwhole ▸ List.mem_cons_self)
  rw [text, hwhole] at htext
  cases hsign : n.negative with
  | false =>
    rw [hsign, if_neg Bool.false_ne_true, List.nil_append, List.cons_append] at htext
    obtain rfl : c = '-' := (List.cons.inj htext).1
    exact absurd hdigit (by decide)
  | true =>
    rw [hsign, if_pos rfl, List.singleton_append, List.cons_append, List.cons_append,
      List.cons.injEq, List.cons.injEq, List.append_eq_nil_iff] at htext
    obtain ⟨-, rfl, rfl, hnone⟩ := htext
    refine ⟨hwhole, ?_⟩
    by_contra hplaces
    rw [if_neg hplaces] at hnone
    cases hnone

theorem text_unsigned :
    (if n.text = [] ∨ n.text = ['-', '0'] then ['0'] else n.text) = n.unsigned.text := by
  have some : n.text ≠ [] := by
    rw [text, ne_eq, List.append_eq_nil_iff, List.append_eq_nil_iff]
    exact fun hnil => h.whole_ne_nil hnil.1.2
  rw [Numeral.unsigned]
  by_cases hzero : n.whole = ['0'] ∧ n.places = []
  · rw [if_pos hzero]
    simp only [text, hzero.1, hzero.2]
    cases n.negative <;> simp
  · rw [if_neg hzero, if_neg]
    rintro (hnil | hsign)
    · exact some hnil
    · exact hzero (zero_of_text h hsign)

end Forms

def ofPlaces (places : Nat) (negative : Bool) (n : Nat) : Numeral :=
  ⟨negative, Nat.toDigits 10 (n / 10 ^ places), (padded places (n % 10 ^ places)).toList⟩

section Places

variable (places : Nat) (negative : Bool) (n : Nat)

theorem negative_ofPlaces : (ofPlaces places negative n).negative = negative := by
  rw [ofPlaces]

theorem whole_ofPlaces :
    (ofPlaces places negative n).whole = Nat.toDigits 10 (n / 10 ^ places) := by
  rw [ofPlaces]

theorem places_ofPlaces :
    (ofPlaces places negative n).places = (padded places (n % 10 ^ places)).toList := by
  rw [ofPlaces]

theorem plain_ofPlaces : (ofPlaces places negative n).Plain where
  whole_ne_nil := by
    rw [whole_ofPlaces]
    exact Nat.toDigits_ne_nil
  whole_digits := by
    rw [whole_ofPlaces]
    exact fun _ => isDigit_of_mem_toDigits
  whole_head := by
    rw [whole_ofPlaces]
    intro hhead
    rcases Nat.eq_zero_or_pos (n / 10 ^ places) with hzero | hpos
    · rw [hzero, Nat.toDigits_zero]
    · exact absurd hhead (head_toDigits hpos)
  places_digits := by
    rw [places_ofPlaces]
    exact isDigit_padded _ _

variable {places} (hplaces : 0 < places)

include hplaces

theorem length_ofPlaces : (ofPlaces places negative n).places.length = places := by
  rw [places_ofPlaces]
  exact length_padded_of_lt hplaces (Nat.mod_lt n (Nat.pow_pos (by decide)))

theorem value_ofPlaces :
    (ofPlaces places negative n).literal.value = signFactor negative * (n / 10 ^ places) := by
  have hlength := length_ofPlaces negative n hplaces
  have digits : digitsValue ((ofPlaces places negative n).whole
      ++ (ofPlaces places negative n).places) = n := by
    rw [digitsValue_append, hlength, whole_ofPlaces, places_ofPlaces, digitsValue_toDigits,
      digitsValue_padded, Nat.div_add_mod']
  rw [value_literal, digits, hlength, negative_ofPlaces]

omit n in
theorem toList_fixed_eq {r : Nat} (hr : r < rankLimit) {n : Nat}
    (hn : roundHalfEven (unitsAt r * 10 ^ places) unitsPerOne = n) :
    (fixed places (.finite negative r hr)).toList = (ofPlaces places negative n).text := by
  have some : (ofPlaces places negative n).places ≠ [] := by
    rw [← List.length_pos_iff_ne_nil, length_ofPlaces negative n hplaces]
    exact hplaces
  rw [toList_fixed hplaces negative hr hn, text, if_neg some, negative_ofPlaces, whole_ofPlaces,
    places_ofPlaces]

end Places

end Numeral

end Decimal

namespace Filter

open Decimal

variable {x y : Binary64}

theorem toList_numberText (s : Bool) {r : Nat} (hr : r < rankLimit) {n : Nat}
    (hn : roundHalfEven (unitsAt r * 10 ^ 6) unitsPerOne = n) :
    (numberText (.finite s r hr)).toList = (Numeral.ofPlaces 6 s n).shortened.unsigned.text := by
  have plain := Numeral.plain_ofPlaces 6 s n
  have some : (Numeral.ofPlaces 6 s n).places ≠ [] := by
    rw [← List.length_pos_iff_ne_nil, Numeral.length_ofPlaces s n (by decide)]
    decide
  have nothing : "" = String.ofList [] := by decide
  have zero : "-0" = String.ofList ['-', '0'] := by decide
  rw [numberText, Numeral.toList_fixed_eq s (by decide) hr hn, Numeral.text_shortened plain some,
    nothing, zero]
  simp only [String.ofList_inj]
  rw [← Numeral.text_unsigned plain.shortened]
  split
  · decide
  · rw [String.toList_ofList]

/-- What is written of a number: its one form, which is read as the number rounded to six places. -/
theorem exists_numeral (hx : x.isFinite = true) : ∃ (numeral : Numeral) (n : ℤ),
    (numberText x).toList = numeral.text ∧ numeral.Canonical ∧ numeral.places.length ≤ 6 ∧
      NearestEven (x.value * 10 ^ 6) n ∧ number? (numberText x) = some ((n : ℚ) / 10 ^ 6) := by
  cases x with
  | finite s r hr =>
    have nearest := finite_nearest s hr (10 ^ 6)
    generalize hn : roundHalfEven (unitsAt r * 10 ^ 6) unitsPerOne = n at nearest
    have htext := toList_numberText s hr hn
    have canonical := Numeral.Plain.canonical (Numeral.plain_ofPlaces 6 s n)
    refine ⟨_, _, htext, canonical, ?_, by exact_mod_cast nearest, ?_⟩
    · have fewer := Numeral.length_places_le (n := Numeral.ofPlaces 6 s n)
      rwa [Numeral.length_ofPlaces s n (by decide)] at fewer
    · rw [number?, htext, Numeral.read?_text canonical.toPlain, Option.map_some,
        Numeral.value_unsigned, Numeral.value_shortened, Numeral.value_ofPlaces s n (by decide)]
      cases s <;> simp [signFactor, neg_div]
  | infinity s => cases hx
  | nan => cases hx

theorem numberText_mono {q r : ℚ} (hx : x.isFinite = true) (hy : y.isFinite = true)
    (hle : le x y = true) (hq : number? (numberText x) = some q)
    (hr : number? (numberText y) = some r) : q ≤ r := by
  obtain ⟨-, n, -, -, -, hn, hread⟩ := exists_numeral hx
  obtain ⟨-, m, -, -, -, hm, hreadToo⟩ := exists_numeral hy
  obtain rfl := Option.some.inj (hread.symm.trans hq)
  obtain rfl := Option.some.inj (hreadToo.symm.trans hr)
  have hvalues : x.value * 10 ^ 6 ≤ y.value * 10 ^ 6 :=
    mul_le_mul_of_nonneg_right ((le_iff hx hy).mp hle) (by positivity)
  have hwhole : (n : ℚ) ≤ m := by exact_mod_cast hn.mono hm hvalues
  exact div_le_div_of_nonneg_right hwhole (by positivity)

/-- A number is written in its one form and rounded at the sixth place, a half to the even
neighbour. So what is read differs from the number by half of that place at most, and of two numbers
the greater one is not written as the less. -/
theorem numberText_canonical (hx : x.isFinite = true) : ∃ (numeral : Numeral) (n : ℤ),
    (numberText x).toList = numeral.text ∧ numeral.Canonical ∧ numeral.places.length ≤ 6 ∧
      number? (numberText x) = some ((n : ℚ) / 10 ^ 6) ∧ NearestEven (x.value * 10 ^ 6) n ∧
      |(n : ℚ) / 10 ^ 6 - x.value| ≤ 5 / 10 ^ 7 ∧
      ∀ y, y.isFinite = true → le x y = true →
        ∃ q, number? (numberText y) = some q ∧ (n : ℚ) / 10 ^ 6 ≤ q := by
  obtain ⟨numeral, n, htext, hcanonical, hlength, hnearest, hread⟩ := exists_numeral hx
  refine ⟨numeral, n, htext, hcanonical, hlength, hread, hnearest, ?_, ?_⟩
  · have near := hnearest.quotient_near (by positivity)
    linarith
  · intro y hy hle
    obtain ⟨-, m, -, -, -, -, hother⟩ := exists_numeral hy
    exact ⟨_, hother, numberText_mono hx hy hle hread hother⟩

/-- At the seventh place there is a half behind an even digit. -/
theorem numberText_canonical_half : numberText (ofQuotient 1 128) = "0.007812" ∧
    NearestEven ((ofQuotient 1 128).value * 10 ^ 6) 7812 ∧
    |(7812 : ℚ) / 10 ^ 6 - (ofQuotient 1 128).value| ≤ 5 / 10 ^ 7 := by
  have text : numberText (ofQuotient 1 128) = "0.007812" := by decide +kernel
  have literal : Literal.read? "0.007812".toList = some ⟨false, 7812, -6⟩ := by decide
  have digits : number? "0.007812" = some (7812 / 10 ^ 6) := by
    rw [number?, literal]
    norm_num [Literal.value, signFactor]
  obtain ⟨-, n, -, -, -, hread, hnearest, hnear, -⟩ :=
    numberText_canonical (x := ofQuotient 1 128) (by decide +kernel)
  rw [text, digits, Option.some_inj] at hread
  have same : (7812 : ℚ) = n := by linarith
  obtain rfl : 7812 = n := by exact_mod_cast same
  exact ⟨text, hnearest, hnear⟩

end Filter

end ClipRender
