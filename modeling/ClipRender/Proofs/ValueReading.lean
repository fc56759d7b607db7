import ClipRender.Filter.Token
import ClipRender.Proofs.ArgumentReading

set_option autoImplicit false

/-!
A value on its own. Whatever stands behind an embedded text, the graph's reader hands on the
option's text, and the option's reader takes the value off the front of that and stops where the
next option begins.
-/

namespace ClipRender.Filter

/-- Escaped text has nothing of the class unescaped, and its last backslash is used up. -/
theorem unescaped_escapeChars {special : Char → Bool} (hslash : special '\\' = true)
    (cs more : List Char) :
    unescaped special (escapeChars special cs ++ more) = unescaped special more := by
  induction cs with
  | nil => rfl
  | cons c cs ih =>
    by_cases hc : special c = true
    · simpa [escapeChars, hc, unescaped] using ih
    · have hb : c ≠ '\\' := by
        rintro rfl
        exact hc hslash
      simpa [escapeChars, hc, unescaped, hb] using ih

namespace Token

/-- What is taken and what is left make up the reading of the whole. -/
theorem unquote_take (quoted : Bool) (cs : List Char) :
    unquote quoted cs = (take quoted cs).marks ++ unquote false (take quoted cs).rest := by
  fun_induction take quoted cs <;> simp_all [unquote]

theorem colon_not_mem_take (quoted : Bool) (cs : List Char) :
    ⟨':', true⟩ ∉ (take quoted cs).marks := by
  fun_induction take quoted cs <;> simp_all [eq_comm]

theorem head?_rest_take (quoted : Bool) (cs : List Char) :
    ∀ c ∈ (take quoted cs).rest.head?, c = ':' := by
  fun_induction take quoted cs <;> simp_all

/-- The options that the whole reading has between its bare colons are the tokens, one by one. -/
theorem splitOn_unquote (cs : List Char) :
    (unquote false cs).splitOn ⟨':', true⟩
      = (take false cs).marks ::
          match (take false cs).rest with
          | [] => []
          | _ :: more => (unquote false more).splitOn ⟨':', true⟩ := by
  have hcolon := colon_not_mem_take false cs
  rw [unquote_take false cs]
  cases hrest : (take false cs).rest with
  | nil => simp [unquote, List.splitOn_eq_singleton hcolon]
  | cons c more =>
    obtain rfl : c = ':' := head?_rest_take false cs c (by simp [hrest])
    have bare : unquote false (':' :: more) = ⟨':', true⟩ :: unquote false more := by simp [unquote]
    have others : ∀ m ∈ (take false cs).marks, (m == (⟨':', true⟩ : Mark)) = false := by
      intro m hm
      rw [beq_eq_false_iff_ne]
      rintro rfl
      exact hcolon hm
    rw [bare, List.splitOn_eq_splitOnP]
    exact List.splitOnP_append_cons_of_forall_mem others _ (beq_self_eq_true _) _

/-- A text that is read in whole and has no bare colon is one token, whatever option comes next. -/
theorem take_append {quoted : Bool} {cs rest : List Char}
    (h : ∀ more, unquote quoted (cs ++ more) = unquote quoted cs ++ unquote false more)
    (hcolon : ⟨':', true⟩ ∉ unquote quoted cs) (hrest : ∀ c ∈ rest.head?, c = ':') :
    take quoted (cs ++ rest) = ⟨unquote quoted cs, rest⟩ := by
  fun_induction unquote quoted cs with
  | case1 quoted =>
    cases quoted with
    -- inside a quote the reader would take the next character as it stands
    | true => simpa [unquote] using h ['a']
    | false =>
      cases rest with
      | nil => rfl
      | cons c rest =>
        obtain rfl := hrest c rfl
        simp [take]
  | case2 cs ih => simpa [take] using ih (by simpa [unquote] using h) hcolon
  | case3 c cs hc ih =>
    have tail := ih (by simpa [unquote, hc] using h) (by simpa using hcolon)
    simp [take, hc, tail, push]
  | case4 c cs ih =>
    have tail := ih (by simpa [unquote] using h) (by simpa using hcolon)
    simp [take, tail, push]
  | case5 cs _ ih => simpa [take] using ih (by simpa [unquote] using h) hcolon
  | case6 c cs hslash hc ih =>
    have hb : c ≠ '\\' := by
      rintro rfl
      cases cs with
      -- so would it behind a backslash at the very end
      | nil => simpa [unquote] using h ['a']
      | cons d cs => exact hslash d cs rfl rfl
    rw [List.mem_cons, not_or] at hcolon
    have hstop : c ≠ ':' := by
      rintro rfl
      exact hcolon.1 rfl
    have tail := ih (by simpa [unquote, hb, hc] using h) hcolon.2
    simp [take, hb, hc, hstop, tail, push]

end Token

theorem Unquotes.take_eq {cs rest : List Char} {marks : List Mark} (h : Unquotes cs marks)
    (hcolon : ⟨':', true⟩ ∉ marks) (hrest : ∀ c ∈ rest.head?, c = ':') :
    Token.take false (cs ++ rest) = ⟨marks, rest⟩ := by
  have whole := h.unquote_eq
  rw [← whole] at hcolon ⊢
  refine Token.take_append ?_ hcolon hrest
  intro more
  rw [h more, whole]

/-- A value as the graph's reader should hand it on. -/
def optionText (s : String) : List Char := escapeEdges (escapeOption s.toList)

theorem toList_embedText (s : String) : (embedText s).toList = escapeGraph (optionText s) := by
  rw [embedText, String.toList_ofList, embed, optionText]

theorem carries_embedText (s : String) : Carries (embedText s).toList (optionText s) := by
  rw [toList_embedText]
  exact Carries.escapeGraph (optionText s)

theorem take_optionText (s : String) (rest : List Char) (hrest : ∀ c ∈ rest.head?, c = ':') :
    (Token.take false (optionText s ++ rest)).value = s ∧
      (Token.take false (optionText s ++ rest)).rest = rest := by
  obtain ⟨lead, body, trail, h⟩ := exists_edges s.toList
  rw [optionText, h.unquotes.take_eq h.colon_not_mem hrest]
  exact ⟨by rw [Token.value, h.readValue, String.ofList_toList], rfl⟩

theorem optionText_injective : Function.Injective optionText := by
  intro s t h
  have found := (take_optionText s [] nofun).1
  rw [h, (take_optionText t [] nofun).1] at found
  exact found.symm

/-- Every text survives both readers. Embedded, it has nothing unescaped that the graph's reader
takes for its own, and that reader hands on the option's text and stands behind it as if it began
there. The option's reader finds the text in that, blanks at its ends and all, and stops where the
next option begins. The three escapes for the option's reader, one after another, are one escape of
its characters, and no two texts are embedded alike. -/
theorem embedText_survives :
    (∀ s : String,
      unescaped isGraphSpecial (embedText s).toList = [] ∧
      Carries (embedText s).toList (optionText s) ∧
      (∀ rest, (∀ c ∈ rest.head?, c = ':') →
        (Token.take false (optionText s ++ rest)).value = s ∧
          (Token.take false (optionText s ++ rest)).rest = rest) ∧
      escapeOption s.toList = escapeChars isOptionSpecial s.toList) ∧
    Function.Injective embedText := by
  constructor
  · intro s
    refine ⟨?_, carries_embedText s, take_optionText s, escapeOption_eq s.toList⟩
    have quiet : unescaped isGraphSpecial (escapeGraph (optionText s) ++ []) = [] :=
      unescaped_escapeChars (by decide) (optionText s) []
    rwa [List.append_nil, ← toList_embedText] at quiet
  · intro s t h
    apply optionText_injective
    rw [← (carries_embedText s).chars_eq, h, (carries_embedText t).chars_eq]

def slashedText : String := " it's 5:00\\ "

theorem embedText_survives_slashed :
    embedText slashedText = "\\\\ it\\\\\\'s 5\\\\:00\\\\\\\\\\\\ " ∧
      (∀ c ∈ (':' :: "x=w*0.1".toList).head?, c = ':') ∧
      (Token.take false (optionText slashedText ++ ':' :: "x=w*0.1".toList)).value
        = slashedText ∧
      (Token.take false (optionText slashedText ++ ':' :: "x=w*0.1".toList)).rest
        = ':' :: "x=w*0.1".toList := by
  have hnext : ∀ c ∈ (':' :: "x=w*0.1".toList).head?, c = ':' := by simp
  obtain ⟨-, -, hread, -⟩ := embedText_survives.1 slashedText
  exact ⟨by decide, hnext, hread _ hnext⟩

end ClipRender.Filter
