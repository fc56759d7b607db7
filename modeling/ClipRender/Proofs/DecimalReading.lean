import ClipRender.Decimal.Fixed
import ClipRender.Decimal.Literal
import ClipRender.Proofs.Binary64.Nearness
import Mathlib.Data.List.TakeWhile

set_option autoImplicit false

/-!
Decimal texts read back. Digits stand for the number that they were written for, with or without
zeros in front of them, and text with a fixed number of places is a literal for the number rounded
to that place.
-/

namespace ClipRender.Decimal

section Digits

theorem digitsValue_eq (cs : List Char) : digitsValue cs = Nat.ofDigitChars 10 cs 0 :=
  Nat.ofDigitChars_eq_foldl.symm

theorem digitsValue_append (cs ds : List Char) :
    digitsValue (cs ++ ds) = digitsValue cs * 10 ^ ds.length + digitsValue ds := by
  rw [digitsValue_eq, digitsValue_eq, digitsValue_eq, Nat.ofDigitChars_append,
    Nat.ofDigitChars_eq_ofDigitChars_zero, Nat.mul_comm]

theorem digitsValue_toDigits (n : Nat) : digitsValue (Nat.toDigits 10 n) = n := by
  rw [digitsValue_eq, Nat.ofDigitChars_ten_toDigits]

theorem digitsValue_zeros (k : Nat) : digitsValue (List.replicate k '0') = 0 := by
  rw [digitsValue_eq, Nat.ofDigitChars_replicate_zero, Nat.mul_zero]

theorem isDigit_of_mem_toDigits {n : Nat} {c : Char} (h : c ∈ Nat.toDigits 10 n) :
    c.isDigit = true :=
  Nat.isDigit_of_mem_toDigits (by decide) (by decide) h

theorem toList_toString (n : Nat) : (toString n).toList = Nat.toDigits 10 n := by simp

theorem head_toDigits {n : Nat} (hn : 0 < n) : (Nat.toDigits 10 n).head? ≠ some '0' := by
  induction n using Nat.strongRecOn with
  | ind n ih =>
    rcases Nat.lt_or_ge n 10 with hless | hmore
    · rw [Nat.toDigits_of_lt_base hless, List.head?_cons]
      have table : ∀ k < 10, 0 < k → Nat.digitChar k ≠ '0' := by decide
      exact fun hzero => table n hless hn (Option.some.inj hzero)
    · rw [Nat.toDigits_of_base_le (by decide) hmore,
        List.head?_append_of_ne_nil _ Nat.toDigits_ne_nil]
      exact ih (n / 10) (by omega) (by omega)

variable (width n : Nat)

theorem toList_padded : (padded width n).toList
    = List.replicate (width - (Nat.toDigits 10 n).length) '0' ++ Nat.toDigits 10 n := by
  rw [padded, String.toList_append, String.toList_ofList, toList_toString, ← String.length_toList,
    toList_toString]

theorem digitsValue_padded : digitsValue (padded width n).toList = n := by
  rw [toList_padded, digitsValue_append, digitsValue_zeros, Nat.zero_mul, Nat.zero_add,
    digitsValue_toDigits]

theorem isDigit_padded : ∀ c ∈ (padded width n).toList, c.isDigit = true := by
  intro c hc
  rw [toList_padded, List.mem_append] at hc
  rcases hc with hzero | hdigit
  · obtain rfl := List.eq_of_mem_replicate hzero
    decide
  · exact isDigit_of_mem_toDigits hdigit

theorem length_padded : (padded width n).toList.length
    = max width (Nat.toDigits 10 n).length := by
  rw [toList_padded, List.length_append, List.length_replicate]
  omega

variable {width n}

theorem length_padded_of_lt (hwidth : 0 < width) (h : n < 10 ^ width) :
    (padded width n).toList.length = width := by
  rw [length_padded, max_eq_left ((Nat.length_toDigits_le_iff (by decide) hwidth).mpr h)]

end Digits

section Literals

def Literal.value (l : Literal) : ℚ :=
  Binary64.signFactor l.negative * (l.coefficient * 10 ^ l.exponent)

/-- The number that a text is for. -/
def number? (text : String) : Option ℚ := (Literal.read? text.toList).map Literal.value

section Signs

variable {whole : List Char} (hwhole : ∀ c ∈ whole, c.isDigit = true) (hsome : whole ≠ [])

include hwhole hsome

theorem signed_digits (negative : Bool) (rest : List Char) :
    signed ((if negative then ['-'] else []) ++ whole ++ rest) = (negative, whole ++ rest) := by
  cases negative with
  | true => rfl
  | false =>
    cases whole with
    | nil => exact absurd rfl hsome
    | cons c others =>
      have hdigit := hwhole c List.mem_cons_self
      rw [if_neg Bool.false_ne_true, List.nil_append, List.cons_append]
      unfold signed
      split
      · next heq =>
        obtain rfl : c = '-' := (List.cons.inj heq).1
        exact absurd hdigit (by decide)
      · next heq =>
        obtain rfl : c = '+' := (List.cons.inj heq).1
        exact absurd hdigit (by decide)
      · rfl

theorem read?_whole (negative : Bool) :
    Literal.read? ((if negative then ['-'] else []) ++ whole)
      = some ⟨negative, digitsValue whole, 0⟩ := by
  have sign := signed_digits hwhole hsome negative []
  rw [List.append_nil, List.append_nil] at sign
  have all : whole.takeWhile Char.isDigit = whole := List.takeWhile_eq_self_iff.mpr hwhole
  have none : whole.dropWhile Char.isDigit = [] := List.dropWhile_eq_nil_iff.mpr hwhole
  rw [Literal.read?, sign]
  simp only [all, none, hsome, false_and, if_false, Option.map_some, List.append_nil,
    List.length_nil, Nat.cast_zero, sub_zero]

end Signs

theorem read?_withPoint {whole places : List Char} (hwhole : ∀ c ∈ whole, c.isDigit = true)
    (hsome : whole ≠ []) (hplaces : ∀ c ∈ places, c.isDigit = true) (negative : Bool) :
    Literal.read? ((if negative then ['-'] else []) ++ whole ++ '.' :: places)
      = some ⟨negative, digitsValue (whole ++ places), -(places.length : Int)⟩ := by
  have sign := signed_digits hwhole hsome negative ('.' :: places)
  have taken : (whole ++ '.' :: places).takeWhile Char.isDigit = whole := by
    rw [List.takeWhile_append_of_pos hwhole, List.takeWhile_cons_of_neg (by decide),
      List.append_nil]
  have dropped : (whole ++ '.' :: places).dropWhile Char.isDigit = '.' :: places := by
    rw [List.dropWhile_append_of_pos hwhole, List.dropWhile_cons_of_neg (by decide)]
  have all : places.takeWhile Char.isDigit = places := List.takeWhile_eq_self_iff.mpr hplaces
  have none : places.dropWhile Char.isDigit = [] := List.dropWhile_eq_nil_iff.mpr hplaces
  rw [Literal.read?, sign]
  simp only [taken, dropped, all, none, hsome, false_and, if_false, Option.map_some, zero_sub]

variable {places : Nat}

theorem toList_fixed (hplaces : 0 < places) (negative : Bool) {r : Nat}
    (hr : r < Binary64.rankLimit) {n : Nat}
    (hn : Binary64.roundHalfEven (Binary64.unitsAt r * 10 ^ places) Binary64.unitsPerOne = n) :
    (fixed places (.finite negative r hr)).toList
      = (if negative then ['-'] else []) ++ Nat.toDigits 10 (n / 10 ^ places)
        ++ '.' :: (padded places (n % 10 ^ places)).toList := by
  have point : ".".toList = ['.'] := by decide
  rw [fixed, Nat.pow_eq, hn, withPoint, if_neg hplaces.ne', Nat.pow_eq]
  simp only [String.toList_append, toList_toString, point, List.append_assoc,
    List.singleton_append]
  cases negative <;> rfl

theorem read?_fixed (hplaces : 0 < places) (negative : Bool) {r : Nat}
    (hr : r < Binary64.rankLimit) {n : Nat}
    (hn : Binary64.roundHalfEven (Binary64.unitsAt r * 10 ^ places) Binary64.unitsPerOne = n) :
    Literal.read? (fixed places (.finite negative r hr)).toList
      = some ⟨negative, n, -(places : Int)⟩ := by
  have hlast : n % 10 ^ places < 10 ^ places := Nat.mod_lt n (Nat.pow_pos (by decide))
  have hlength := length_padded_of_lt hplaces hlast
  have whole : digitsValue
      (Nat.toDigits 10 (n / 10 ^ places) ++ (padded places (n % 10 ^ places)).toList) = n := by
    rw [digitsValue_append, digitsValue_toDigits, digitsValue_padded, hlength,
      Nat.div_add_mod']
  rw [toList_fixed hplaces negative hr hn, read?_withPoint (fun _ => isDigit_of_mem_toDigits)
    Nat.toDigits_ne_nil (isDigit_padded _ _), whole, hlength]

theorem number?_fixed (hplaces : 0 < places) (negative : Bool) {r : Nat}
    (hr : r < Binary64.rankLimit) :
    number? (fixed places (.finite negative r hr)) = some (Binary64.signFactor negative *
      (Binary64.roundHalfEven (Binary64.unitsAt r * 10 ^ places) Binary64.unitsPerOne
        / 10 ^ places)) := by
  rw [number?, read?_fixed hplaces negative hr rfl, Option.map_some, Literal.value, zpow_neg,
    zpow_natCast, ← div_eq_mul_inv]

theorem mem_fixed (hplaces : 0 < places) {negative : Bool} {r : Nat} {hr : r < Binary64.rankLimit}
    {c : Char} (hc : c ∈ (fixed places (.finite negative r hr)).toList) :
    c.isDigit = true ∨ c = '.' ∨ c = '-' := by
  rw [toList_fixed hplaces negative hr rfl, List.append_assoc, List.mem_append, List.mem_append,
    List.mem_cons] at hc
  rcases hc with hsign | hwhole | hpoint | hlast
  · cases negative with
    | false => cases hsign
    | true => exact .inr (.inr (List.mem_singleton.mp hsign))
  · exact .inl (isDigit_of_mem_toDigits hwhole)
  · exact .inr (.inl hpoint)
  · exact .inl (isDigit_padded _ _ c hlast)

end Literals

end ClipRender.Decimal
