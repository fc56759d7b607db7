import ClipRender.Filter.Graph
import ClipRender.Proofs.Quoting
import Mathlib.Data.List.Basic

set_option autoImplicit false

/-!
Texts that need no quoting. Numbers, colours and positions are made of letters, digits and a few
signs that neither reader takes for its own; expressions have commas besides.
-/

namespace ClipRender.Filter

def isPlain (c : Char) : Bool :=
  c.isAlphanum || c = '.' || c = '-' || c = '*' || c = '/' || c = '(' || c = ')' || c = '_'

def isReserved (c : Char) : Bool :=
  isGraphSpecial c || isOptionSpecial c || isOptionBlank c || c = '='

theorem isPlain_of_isDigit {c : Char} (h : c.isDigit = true) : isPlain c = true := by
  simp [isPlain, Char.isAlphanum, h]

theorem not_isReserved_of_isPlain {c : Char} (h : isPlain c = true) : isReserved c = false := by
  by_contra hc
  simp only [isReserved, isGraphSpecial, isOptionSpecial, isOptionBlank, Bool.not_eq_false,
    Bool.or_eq_true, decide_eq_true_eq] at hc
  revert h
  rcases hc with
    (((((((rfl | rfl) | rfl) | rfl) | rfl) | rfl) | ((rfl | rfl) | rfl)) |
      (((rfl | rfl) | rfl) | rfl)) | rfl <;> decide

def PlainText (s : String) : Prop := ∀ c ∈ s.toList, isPlain c = true

namespace PlainText

theorem append {s t : String} (hs : PlainText s) (ht : PlainText t) : PlainText (s ++ t) := by
  intro c hc
  rw [String.toList_append, List.mem_append] at hc
  rcases hc with hc | hc
  · exact hs c hc
  · exact ht c hc

theorem literal {s : String} (h : s.toList.all isPlain = true) : PlainText s :=
  fun c hc => List.all_eq_true.mp h c hc

theorem natural (n : Nat) : PlainText (toString n) := by
  intro c hc
  change c ∈ n.repr.toList at hc
  rw [Nat.toList_repr] at hc
  exact isPlain_of_isDigit (Nat.isDigit_of_mem_toDigits (by decide) (by decide) hc)

theorem integer (n : Int) : PlainText (toString n) := by
  cases n with
  | ofNat n => exact natural n
  | negSucc n => exact (literal (by decide)).append (natural (n + 1))

theorem padded (width n : Nat) : PlainText (Decimal.padded width n) := by
  refine append ?_ (natural n)
  intro c hc
  rw [String.toList_ofList] at hc
  obtain rfl := List.eq_of_mem_replicate hc
  decide

theorem withPoint (places n : Nat) : PlainText (Decimal.withPoint places n) := by
  rw [Decimal.withPoint]
  split
  · exact natural n
  · exact ((natural _).append (literal (by decide))).append (padded places _)

theorem fixed (places : Nat) (x : Binary64) : PlainText (Decimal.fixed places x) := by
  cases x with
  | nan => exact literal (s := "nan") (by decide)
  | infinity negative =>
    cases negative with
    | false => exact literal (s := "inf") (by decide)
    | true => exact literal (s := "-inf") (by decide)
  | finite negative rank _ =>
    have sign : PlainText (if negative then "-" else "") := by
      split <;> exact literal (by decide)
    exact sign.append (withPoint places _)

theorem numberText (x : Binary64) : PlainText (numberText x) := by
  rw [Filter.numberText]
  split
  · exact literal (by decide)
  · intro c hc
    rw [String.toList_ofList] at hc
    have mem_of_mem_dropTrailing : ∀ {d : Char} {cs : List Char}, c ∈ dropTrailing d cs → c ∈ cs := by
      intro d cs hmem
      rw [dropTrailing, List.mem_reverse] at hmem
      exact List.mem_reverse.mp ((List.dropWhile_suffix _).subset hmem)
    exact fixed 6 x c (mem_of_mem_dropTrailing (mem_of_mem_dropTrailing hc))

theorem toNat_lt {c : Char} (h : Color.isHexDigit c = true) : c.toNat < 128 := by
  simp only [Color.isHexDigit, Char.isDigit, Bool.or_eq_true, Bool.and_eq_true,
    decide_eq_true_eq, Char.le_def, UInt32.le_iff_toNat_le] at h
  change c.val.toNat < 128
  rcases h with (⟨-, h⟩ | ⟨-, h⟩) | ⟨-, h⟩
  all_goals exact Nat.lt_of_le_of_lt h (by decide)

theorem upperChar {c : Char} (h : Color.isHexDigit c = true) :
    ∀ d ∈ Text.upperChar c, isPlain d = true := by
  have table : ∀ n < 128, Color.isHexDigit (Char.ofNat n) = true →
      (Text.upperChar (Char.ofNat n)).all isPlain = true := by decide +kernel
  have hall := table c.toNat (toNat_lt h) (by rwa [Char.ofNat_toNat])
  rw [Char.ofNat_toNat] at hall
  exact List.all_eq_true.mp hall

theorem engineText {color : String} {digits : List Char} (hcolor : color.toList = '#' :: digits)
    (hdigits : Color.isDigits digits = true) : PlainText (Color.engineText color) := by
  refine append (literal (by decide)) ?_
  intro c hc
  rw [Text.upper, String.toList_ofList, String.toList_ofList, List.mem_flatMap] at hc
  obtain ⟨d, hd, hc⟩ := hc
  have hmem : d ∈ digits := by
    rw [hcolor, List.dropWhile_cons_of_pos (by decide)] at hd
    exact (List.dropWhile_suffix _).subset hd
  rw [Color.isDigits, Bool.and_eq_true, List.all_eq_true] at hdigits
  exact upperChar (hdigits.1 d hmem) c hc

end PlainText

def ExpressionText (s : String) : Prop := ∀ c ∈ s.toList, isPlain c = true ∨ c = ','

namespace ExpressionText

theorem append {s t : String} (hs : ExpressionText s) (ht : ExpressionText t) :
    ExpressionText (s ++ t) := by
  intro c hc
  rw [String.toList_append, List.mem_append] at hc
  rcases hc with hc | hc
  · exact hs c hc
  · exact ht c hc

theorem ofPlain {s : String} (h : PlainText s) : ExpressionText s := fun c hc => .inl (h c hc)

theorem literal {s : String} (h : s.toList.all (fun c => isPlain c || c = ',') = true) :
    ExpressionText s := by
  intro c hc
  simpa using List.all_eq_true.mp h c hc

theorem enclosed {needed : Bool} {s : String} (h : ExpressionText s) :
    ExpressionText (Expression.enclosed needed s) := by
  rw [Expression.enclosed]
  split
  · exact ((literal (by decide)).append h).append (literal (by decide))
  · exact h

theorem textAt (e : Expression) (level : Nat) : ExpressionText (e.textAt level) := by
  induction e generalizing level with
  | number n => exact ofPlain (PlainText.integer n)
  | size which =>
    have name : ExpressionText which.name := by cases which <;> exact literal (by decide)
    exact name
  | sub a b iha ihb =>
    exact enclosed (((iha 0).append (literal (by decide))).append (ihb 1))
  | mul a b iha ihb =>
    exact enclosed (((iha 1).append (literal (by decide))).append (ihb 2))
  | div a b iha ihb =>
    exact enclosed (((iha 1).append (literal (by decide))).append (ihb 2))
  | trunc a iha => exact ((literal (by decide)).append (iha 0)).append (literal (by decide))
  | ifGreater a b yes no iha ihb ihyes ihno =>
    have comma : ExpressionText "," := literal (by decide)
    have condition := (((literal (s := "if(gt(") (by decide)).append (iha 0)).append comma).append
      (ihb 0)
    have branches := (((condition.append (literal (s := "),") (by decide))).append
      (ihyes 0)).append comma).append (ihno 0)
    exact branches.append (literal (by decide))

end ExpressionText

end ClipRender.Filter
