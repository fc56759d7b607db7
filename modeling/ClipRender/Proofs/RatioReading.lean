import ClipRender.Filter.Ratio
import ClipRender.Proofs.Quoting
import Mathlib.Data.List.Induction
import Mathlib.Data.Nat.Digits.Defs

set_option autoImplicit false

/-!
Aspect ratios as they are read. The texts with two numbers are those of one form: a number between
blanks, a colon, and another number between blanks. Each other text but the name of the original
ratio is refused as malformed. What is read are the numbers alone, whatever blanks are around them
and zeros in front of them.
-/

namespace ClipRender

namespace Text

def blankCodes : List Nat :=
  [0x09, 0x0A, 0x0B, 0x0C, 0x0D, 0x1C, 0x1D, 0x1E, 0x1F, 0x20, 0x85, 0xA0, 0x1680, 0x2000, 0x2001,
   0x2002, 0x2003, 0x2004, 0x2005, 0x2006, 0x2007, 0x2008, 0x2009, 0x200A, 0x2028, 0x2029, 0x202F,
   0x205F, 0x3000]

theorem mem_blankCodes {c : Char} (h : isBlank c = true) : c.toNat ∈ blankCodes := by
  simp only [isBlank, isWhiteSpace, Bool.or_eq_true, Bool.and_eq_true, decide_eq_true_eq] at h
  simp only [blankCodes, List.mem_cons, List.not_mem_nil, or_false]
  omega

theorem isDecimalDigit_of_isBlank {c : Char} (h : isBlank c = true) : isDecimalDigit c = false := by
  have apart : ∀ n ∈ blankCodes,
      decimalZeros.find? (fun first => first ≤ n && n < first + 10) = none := by
    decide
  rw [isDecimalDigit, decimalDigit?, apart _ (mem_blankCodes h)]
  rfl

def digitValue (c : Char) : Nat := (decimalDigit? c).getD 0

theorem decimalValue_eq (digits : List Char) :
    decimalValue digits = Nat.ofDigits 10 (digits.reverse.map digitValue) := by
  induction digits using List.reverseRecOn with
  | nil => rfl
  | append_singleton digits c ih =>
    rw [decimalValue, List.foldl_append, ← decimalValue, ih, List.reverse_append, List.map_append]
    exact Nat.add_comm _ _

theorem decimalValue_append (first digits : List Char) : decimalValue (first ++ digits)
    = 10 ^ digits.length * decimalValue first + decimalValue digits := by
  rw [decimalValue_eq, decimalValue_eq, decimalValue_eq, List.reverse_append, List.map_append,
    Nat.ofDigits_append, List.length_map, List.length_reverse, Nat.add_comm]

theorem decimalValue_zeros {zeros : List Char} (h : ∀ c ∈ zeros, decimalDigit? c = some 0) :
    decimalValue zeros = 0 := by
  induction zeros using List.reverseRecOn with
  | nil => rfl
  | append_singleton zeros c ih =>
    rw [decimalValue_append, ih fun d hd => h d (List.mem_append_left _ hd), decimalValue,
      List.foldl_cons, h c (List.mem_append_right _ List.mem_cons_self)]
    rfl

end Text

namespace Filter.Ratio

structure Number where
  before : List Char
  digits : List Char
  after : List Char

namespace Number

def text (number : Number) : List Char := number.before ++ (number.digits ++ number.after)

def value (number : Number) : Nat :=
  Nat.ofDigits 10 (number.digits.reverse.map Text.digitValue)

/-- There are digits, and nothing but digits and blanks where they belong. -/
structure Proper (number : Number) : Prop where
  before : ∀ c ∈ number.before, Text.isBlank c = true
  digits : ∀ c ∈ number.digits, Text.isDecimalDigit c = true
  digits_ne_nil : number.digits ≠ []
  after : ∀ c ∈ number.after, Text.isBlank c = true

/-- The same digits with zeros, of any script, in front of them. -/
def Pads (other number : Number) : Prop :=
  ∃ zeros, (∀ c ∈ zeros, Text.decimalDigit? c = some 0) ∧ other.digits = zeros ++ number.digits

section Reading

variable {cs digits rest : List Char}

theorem not_digit_head_blanks (hblank : ∀ c ∈ cs, Text.isBlank c = true)
    (hrest : ∀ c ∈ rest.head?, Text.isDecimalDigit c = false) :
    ∀ c ∈ (cs ++ rest).head?, Text.isDecimalDigit c = false := by
  cases cs with
  | nil => exact hrest
  | cons d cs =>
    rintro c ⟨⟩
    exact Text.isDecimalDigit_of_isBlank (hblank d List.mem_cons_self)

theorem not_blank_head_digits (hdigits : ∀ c ∈ digits, Text.isDecimalDigit c = true)
    (hsome : digits ≠ []) : ∀ c ∈ (digits ++ rest).head?, Text.isBlank c = false := by
  cases digits with
  | nil => exact absurd rfl hsome
  | cons d digits =>
    rintro c ⟨⟩
    by_contra hblank
    have hdigit := hdigits d List.mem_cons_self
    rw [Text.isDecimalDigit_of_isBlank (Bool.not_eq_false _ ▸ hblank)] at hdigit
    cases hdigit

variable {number : Number} (h : number.Proper)

include h

theorem Proper.digits?_eq (hrest : ∀ c ∈ rest.head?, Text.isDecimalDigit c = false) :
    digits? (skipBlanks (number.text ++ rest)) = some (number.digits, number.after ++ rest) := by
  have start : skipBlanks (number.text ++ rest) = number.digits ++ (number.after ++ rest) := by
    rw [text, List.append_assoc, List.append_assoc, skipBlanks]
    exact dropWhile_append_of_stop h.before (not_blank_head_digits h.digits h.digits_ne_nil)
  have stop := not_digit_head_blanks h.after hrest
  rw [start, digits?, takeWhile_append_of_stop h.digits stop,
    dropWhile_append_of_stop h.digits stop, if_neg (by simpa using h.digits_ne_nil)]

theorem Proper.skipBlanks_after (hrest : ∀ c ∈ rest.head?, Text.isBlank c = false) :
    skipBlanks (number.after ++ rest) = rest :=
  dropWhile_append_of_stop h.after hrest

omit h

theorem exists_of_digits? (hread : digits? (skipBlanks cs) = some (digits, rest)) :
    ∃ number : Number, number.Proper ∧ number.digits = digits ∧
      cs = number.text ++ skipBlanks rest := by
  rw [digits?] at hread
  split at hread
  · cases hread
  · next hsome =>
    obtain ⟨rfl, rfl⟩ := Prod.mk.inj (Option.some.inj hread)
    let found : Number :=
      ⟨cs.takeWhile Text.isBlank, (skipBlanks cs).takeWhile Text.isDecimalDigit,
        ((skipBlanks cs).dropWhile Text.isDecimalDigit).takeWhile Text.isBlank⟩
    refine ⟨found, ⟨?_, ?_, ?_, ?_⟩, rfl, ?_⟩
    · exact fun c hc => List.mem_takeWhile_imp hc
    · exact fun c hc => List.mem_takeWhile_imp hc
    · exact fun hnil => hsome (List.isEmpty_iff.mpr hnil)
    · exact fun c hc => List.mem_takeWhile_imp hc
    · simp only [found, text, skipBlanks, List.append_assoc, List.takeWhile_append_dropWhile]

end Reading

end Number

structure Form where
  width : Number
  height : Number

namespace Form

def text (form : Form) : List Char := form.width.text ++ ':' :: form.height.text

structure Proper (form : Form) : Prop where
  width : form.width.Proper
  height : form.height.Proper

/-- The form with other blanks and with more zeros in front of its numbers. -/
structure Pads (other form : Form) : Prop where
  width : other.width.Pads form.width
  height : other.height.Pads form.height

/-- The ratio of the numbers, of which none may be zero. -/
structure Names (form : Form) (ratio : Ratio) : Prop where
  width : ratio.width = form.width.value
  height : ratio.height = form.height.value
  width_pos : 0 < ratio.width
  height_pos : 0 < ratio.height

variable {form : Form}

theorem sides?_text (h : form.Proper) :
    sides? form.text = some (form.width.digits, form.height.digits) := by
  have colon : ∀ c ∈ (':' :: form.height.text).head?,
      Text.isDecimalDigit c = false ∧ Text.isBlank c = false := by
    rintro c ⟨⟩
    decide
  have width := h.width.digits?_eq fun c hc => (colon c hc).1
  have between := h.width.skipBlanks_after fun c hc => (colon c hc).2
  have height := @Number.Proper.digits?_eq [] _ h.height nofun
  have trailing := @Number.Proper.skipBlanks_after [] _ h.height nofun
  rw [List.append_nil] at height
  rw [sides?, text, width, Option.bind_eq_bind, Option.bind_some]
  simp only [between, height, trailing, Option.bind_some, List.isEmpty_nil, if_true]

theorem exists_of_sides? {cs width height : List Char} (hread : sides? cs = some (width, height)) :
    ∃ form : Form, form.Proper ∧ cs = form.text := by
  rw [sides?, Option.bind_eq_bind, Option.bind_eq_some_iff] at hread
  obtain ⟨⟨digits, rest⟩, hwidth, hread⟩ := hread
  obtain ⟨first, hfirst, -, hcs⟩ := Number.exists_of_digits? hwidth
  dsimp only at hread
  split at hread
  · next others hcolon =>
    rw [Option.bind_eq_some_iff] at hread
    obtain ⟨⟨digits, rest⟩, hheight, hread⟩ := hread
    obtain ⟨second, hsecond, -, hothers⟩ := Number.exists_of_digits? hheight
    split at hread
    · next hend =>
      refine ⟨⟨first, second⟩, ⟨hfirst, hsecond⟩, ?_⟩
      rw [List.isEmpty_iff.mp hend, List.append_nil] at hothers
      rw [hcs, hcolon, hothers, text]
    · cases hread
  · cases hread

end Form

/-- No run of digits is too long to be read. -/
def WithinLimit (cs : List Char) : Prop :=
  ∀ run, run <:+: cs → (∀ c ∈ run, Text.isDecimalDigit c = true) → run.length ≤ digitLimit

section Reading

variable {s : String} {form : Form}

theorem side_eq {digits : List Char} (h : digits.length ≤ digitLimit) :
    side digits = .ok (Text.decimalValue digits) := by
  rw [side, if_neg (Nat.not_lt.mpr h)]

theorem ne_original (hs : s.toList = form.text) : s ≠ "original" := by
  rintro rfl
  have hcolon : ':' ∈ form.text := List.mem_append_right _ List.mem_cons_self
  rw [← hs] at hcolon
  exact absurd hcolon (by decide)

theorem read_text (h : form.Proper) (hs : s.toList = form.text) (hlimit : WithinLimit s.toList) :
    read (some s)
      = if form.width.value = 0 ∨ form.height.value = 0 then
          .error (.reported (.ratioNotPositive s))
        else .ok (some ⟨form.width.value, form.height.value⟩) := by
  rw [hs] at hlimit
  have width : form.width.digits <:+: form.text :=
    ⟨form.width.before, form.width.after ++ ':' :: form.height.text, by
      simp only [Form.text, Number.text, List.append_assoc]⟩
  have height : form.height.digits <:+: form.text :=
    ⟨form.width.text ++ ':' :: form.height.before, form.height.after, by
      simp only [Form.text, Number.text, List.append_assoc, List.cons_append]⟩
  have hw := side_eq (hlimit _ width h.width.digits)
  have hh := side_eq (hlimit _ height h.height.digits)
  rw [Text.decimalValue_eq] at hw hh
  rw [read, Option.getD_some, if_neg (ne_original hs), hs, Form.sides?_text h]
  simp only [hw, hh]
  rfl

theorem read_malformed (hs : s ≠ "original")
    (hnone : ¬∃ form : Form, form.Proper ∧ s.toList = form.text) :
    read (some s) = .error (.reported (.malformedRatio (some s))) := by
  rw [read, Option.getD_some, if_neg hs]
  cases hsides : sides? s.toList with
  | none => rfl
  | some sides => exact absurd (Form.exists_of_sides? hsides) hnone

theorem Form.Names.read_eq {ratio : Ratio} (hnames : form.Names ratio) (h : form.Proper)
    (hs : s.toList = form.text) (hlimit : WithinLimit s.toList) :
    read (some s) = .ok (some ratio) := by
  obtain ⟨w, r⟩ := ratio
  obtain ⟨rfl, rfl, hwidth, hheight⟩ := hnames
  have positive : ¬(form.width.value = 0 ∨ form.height.value = 0) := by
    dsimp only at hwidth hheight
    omega
  rw [read_text h hs hlimit, if_neg positive]

theorem read_cases (hlimit : WithinLimit s.toList) :
    (s = "original" ∧ read (some s) = .ok none) ∨
    (∃ (form : Form) (ratio : Ratio), form.Proper ∧ s.toList = form.text ∧ form.Names ratio ∧
      read (some s) = .ok (some ratio)) ∨
    ∃ error, read (some s) = .error (.reported error) ∧ error.kind = .invalidEditSpec := by
  by_cases horiginal : s = "original"
  · exact .inl ⟨horiginal, by rw [horiginal]; rfl⟩
  · by_cases hform : ∃ form : Form, form.Proper ∧ s.toList = form.text
    · obtain ⟨form, h, hs⟩ := hform
      have hread := read_text h hs hlimit
      by_cases hzero : form.width.value = 0 ∨ form.height.value = 0
      · rw [if_pos hzero] at hread
        exact .inr (.inr ⟨_, hread, rfl⟩)
      · rw [if_neg hzero] at hread
        rw [not_or] at hzero
        refine .inr (.inl ⟨form, _, h, hs, ⟨rfl, rfl, ?_, ?_⟩, hread⟩)
        · exact Int.natCast_pos.mpr (Nat.pos_of_ne_zero hzero.1)
        · exact Int.natCast_pos.mpr (Nat.pos_of_ne_zero hzero.2)
    · exact .inr (.inr ⟨_, read_malformed horiginal hform, rfl⟩)

theorem read_eq_none_iff (hlimit : WithinLimit s.toList) :
    read (some s) = .ok none ↔ s = "original" := by
  refine ⟨fun hread => ?_, fun horiginal => by rw [horiginal]; rfl⟩
  rcases read_cases hlimit with ⟨horiginal, -⟩ | ⟨form, ratio, -, -, -, hratio⟩ | ⟨error, herror, -⟩
  · exact horiginal
  · rw [hread] at hratio
    cases hratio
  · rw [hread] at herror
    cases herror

theorem read_eq_some_iff {ratio : Ratio} (hlimit : WithinLimit s.toList) :
    read (some s) = .ok (some ratio) ↔
      ∃ form : Form, form.Proper ∧ s.toList = form.text ∧ form.Names ratio := by
  refine ⟨fun hread => ?_, fun ⟨form, h, hs, hnames⟩ => hnames.read_eq h hs hlimit⟩
  rcases read_cases hlimit with ⟨-, hnone⟩ | ⟨form, named, h, hs, hnames, hratio⟩ |
    ⟨error, herror, -⟩
  · rw [hread] at hnone
    cases hnone
  · rw [hread] at hratio
    cases hratio
    exact ⟨form, h, hs, hnames⟩
  · rw [hread] at herror
    cases herror

theorem read_refused (hlimit : WithinLimit s.toList) (horiginal : s ≠ "original")
    (hnone : ¬∃ (form : Form) (ratio : Ratio),
      form.Proper ∧ s.toList = form.text ∧ form.Names ratio) :
    ∃ error, read (some s) = .error (.reported error) ∧ error.kind = .invalidEditSpec := by
  rcases read_cases hlimit with ⟨h, -⟩ | ⟨form, ratio, h, hs, hnames, -⟩ | herror
  · exact absurd h horiginal
  · exact absurd ⟨form, ratio, h, hs, hnames⟩ hnone
  · exact herror

/-- The same ratio, or errors of the same kind. -/
def SameOutcome : Except Failure (Option Ratio) → Except Failure (Option Ratio) → Prop
  | .ok ratio, .ok other => ratio = other
  | .error (.reported error), .error (.reported other) => error.kind = other.kind
  | _, _ => False

theorem Number.Pads.value_eq {number other : Number} (h : other.Pads number) :
    other.value = number.value := by
  obtain ⟨zeros, hzeros, hdigits⟩ := h
  rw [value, value, ← Text.decimalValue_eq, ← Text.decimalValue_eq, hdigits,
    Text.decimalValue_append, Text.decimalValue_zeros hzeros, Nat.mul_zero, Nat.zero_add]

theorem read_padded {t : String} {other : Form} (h : form.Proper) (hs : s.toList = form.text)
    (hlimit : WithinLimit s.toList) (hother : other.Proper) (ht : t.toList = other.text)
    (hlimit' : WithinLimit t.toList) (hpads : other.Pads form) :
    SameOutcome (read (some t)) (read (some s)) := by
  rw [read_text h hs hlimit, read_text hother ht hlimit', hpads.width.value_eq,
    hpads.height.value_eq]
  split
  · rfl
  · rfl

/-- The texts that name a ratio, which ratio it is, and that all others are refused. -/
theorem read_grammar (hlimit : WithinLimit s.toList) :
    (read (some s) = .ok none ↔ s = "original") ∧
    (∀ ratio, read (some s) = .ok (some ratio) ↔
      ∃ form : Form, form.Proper ∧ s.toList = form.text ∧ form.Names ratio) ∧
    (s ≠ "original" → (¬∃ (form : Form) (ratio : Ratio),
        form.Proper ∧ s.toList = form.text ∧ form.Names ratio) →
      ∃ error, read (some s) = .error (.reported error) ∧ error.kind = .invalidEditSpec) ∧
    ∀ (form other : Form) (t : String), form.Proper → s.toList = form.text →
      other.Proper → t.toList = other.text → WithinLimit t.toList → other.Pads form →
      SameOutcome (read (some t)) (read (some s)) :=
  ⟨read_eq_none_iff hlimit, fun _ => read_eq_some_iff hlimit, read_refused hlimit,
    fun _ _ _ h hs hother ht hlimit' hpads => read_padded h hs hlimit hother ht hlimit' hpads⟩

theorem withinLimit_of_length (h : s.toList.length ≤ digitLimit) : WithinLimit s.toList :=
  fun _ hrun _ => hrun.length_le.trans h

end Reading

theorem Number.Proper.of_all {number : Number} (hbefore : number.before.all Text.isBlank = true)
    (hdigits : number.digits.all Text.isDecimalDigit = true) (hsome : number.digits ≠ [])
    (hafter : number.after.all Text.isBlank = true) : number.Proper where
  before := List.all_eq_true.mp hbefore
  digits := List.all_eq_true.mp hdigits
  digits_ne_nil := hsome
  after := List.all_eq_true.mp hafter

namespace Sample

/-- Two scripts in one number. -/
def bare : Form := ⟨⟨[], ['\u0967', '6'], []⟩, ⟨[], ['9'], []⟩⟩

def spaced : Form :=
  ⟨⟨['\u2003'], ['\u0967', '6'], [' ']⟩, ⟨['\t'], ['\u0660', '9'], ['\n']⟩⟩

end Sample

theorem read_grammar_scripts :
    WithinLimit "\u09676:9".toList ∧ read (some "\u09676:9") = .ok (some ⟨16, 9⟩) ∧
      SameOutcome (read (some "\u2003\u09676 :\t\u06609\n")) (read (some "\u09676:9")) := by
  have hlimit : WithinLimit "\u09676:9".toList := withinLimit_of_length (by decide)
  have proper : Sample.bare.Proper :=
    ⟨.of_all rfl rfl (List.cons_ne_nil _ _) rfl, .of_all rfl rfl (List.cons_ne_nil _ _) rfl⟩
  have spaced : Sample.spaced.Proper :=
    ⟨.of_all rfl rfl (List.cons_ne_nil _ _) rfl, .of_all rfl rfl (List.cons_ne_nil _ _) rfl⟩
  have names : Sample.bare.Names ⟨16, 9⟩ := by
    constructor <;> decide
  have pads : Sample.spaced.Pads Sample.bare :=
    ⟨⟨[], nofun, rfl⟩, ⟨['\u0660'], List.forall_mem_singleton.mpr rfl, rfl⟩⟩
  obtain ⟨-, hread, -, hsame⟩ := read_grammar hlimit
  exact ⟨hlimit, (hread _).mpr ⟨Sample.bare, proper, by decide, names⟩,
    hsame Sample.bare Sample.spaced _ proper (by decide) spaced (by decide)
      (withinLimit_of_length (by decide)) pads⟩

end Filter.Ratio

end ClipRender
