import ClipRender.Filter.Reading
import Mathlib.Data.List.Basic
import Mathlib.Data.List.TakeWhile

set_option autoImplicit false

/-!
Quoting against reading. What was escaped for a reader is read as it was written, whatever stands
around it, and none of its marks means anything to the reader. A value that was escaped for both
readers comes back character for character, with the blanks at its ends.
-/

namespace ClipRender.Filter

/-- The reader takes the text to the marks and is then where it was, whatever follows. -/
def Unquotes (cs : List Char) (marks : List Mark) : Prop :=
  ∀ rest, unquote false (cs ++ rest) = marks ++ unquote false rest

namespace Unquotes

theorem nil : Unquotes [] [] := fun _ => rfl

theorem append {cs ds : List Char} {ms ns : List Mark} (h : Unquotes cs ms) (k : Unquotes ds ns) :
    Unquotes (cs ++ ds) (ms ++ ns) := by
  intro rest
  rw [List.append_assoc, h, k, List.append_assoc]

theorem unquote_eq {cs : List Char} {ms : List Mark} (h : Unquotes cs ms) :
    unquote false cs = ms := by
  have whole := h []
  rwa [List.append_nil, unquote, List.append_nil] at whole

theorem escaped (c : Char) : Unquotes ['\\', c] [⟨c, false⟩] := fun _ => by simp [unquote]

theorem bare {c : Char} (hb : c ≠ '\\') (hq : c ≠ '\'') : Unquotes [c] [⟨c, true⟩] := fun rest => by
  simp [unquote, hb, hq]

theorem escapeChars {special : Char → Bool} {cs : List Char}
    (h : ∀ c ∈ cs, special c = false → c ≠ '\\' ∧ c ≠ '\'') :
    Unquotes (escapeChars special cs) (cs.map fun c => ⟨c, !special c⟩) := by
  induction cs with
  | nil => exact nil
  | cons c cs ih =>
    have tail := ih fun d hd => h d (List.mem_cons_of_mem c hd)
    by_cases hc : special c = true
    · simpa [Filter.escapeChars, hc] using (escaped c).append tail
    · have hc : special c = false := by simpa using hc
      have ⟨hb, hq⟩ := h c List.mem_cons_self hc
      simpa [Filter.escapeChars, hc] using (bare hb hq).append tail

theorem plain {cs : List Char} (h : ∀ c ∈ cs, c ≠ '\\' ∧ c ≠ '\'') :
    Unquotes cs (cs.map fun c => ⟨c, true⟩) := by
  have all : Unquotes (Filter.escapeChars (fun _ => false) cs) _ :=
    escapeChars fun c hc _ => h c hc
  simpa [Filter.escapeChars] using all

theorem openQuote {cs : List Char} (h : '\'' ∉ cs) (rest : List Char) :
    unquote true (cs ++ '\'' :: rest) = (cs.map fun c => ⟨c, false⟩) ++ unquote false rest := by
  induction cs with
  | nil => simp [unquote]
  | cons c cs ih =>
    simp only [List.mem_cons, not_or] at h
    simp [unquote, Ne.symm h.1, ih h.2]

theorem quoted {cs : List Char} (h : '\'' ∉ cs) :
    Unquotes ('\'' :: (cs ++ ['\''])) (cs.map fun c => ⟨c, false⟩) := by
  intro rest
  simp [unquote, openQuote h]

theorem intercalate {sep : Char} (hb : sep ≠ '\\') (hq : sep ≠ '\'') {texts : List (List Char)}
    {marks : List (List Mark)} (h : List.Forall₂ Unquotes texts marks) :
    Unquotes ([sep].intercalate texts) ([⟨sep, true⟩].intercalate marks) := by
  induction h with
  | nil => exact nil
  | @cons cs ms texts marks head tail ih =>
    cases tail with
    | nil => simpa using head
    | cons next rest => simpa using head.append ((bare hb hq).append ih)

end Unquotes

@[simp] theorem Mark.chars_map (cs : List Char) (bare : Char → Bool) :
    Mark.chars (cs.map fun c => ⟨c, bare c⟩) = cs := by
  simp [Mark.chars, Function.comp_def]

@[simp] theorem Mark.chars_append (ms ns : List Mark) :
    Mark.chars (ms ++ ns) = Mark.chars ms ++ Mark.chars ns := List.map_append

theorem escapeChars_append (special : Char → Bool) (cs ds : List Char) :
    escapeChars special (cs ++ ds) = escapeChars special cs ++ escapeChars special ds :=
  List.flatMap_append

def isOptionSpecial (c : Char) : Bool := c = '\\' || c = '\'' || c = ':'

/-- Escaping in turn is escaping at once, because the backslashes come first. -/
theorem escapeOption_eq (cs : List Char) : escapeOption cs = escapeChars isOptionSpecial cs := by
  induction cs with
  | nil => rfl
  | cons c cs ih =>
    have step : escapeOption (c :: cs) = escapeOption [c] ++ escapeOption cs := by
      simp only [escapeOption, escapeChar, ← List.singleton_append (l := cs), escapeChars_append]
    have one : escapeOption [c] = escapeChars isOptionSpecial [c] := by
      by_cases hb : c = '\\'
      · subst hb; decide
      by_cases hq : c = '\''
      · subst hq; decide
      by_cases hc : c = ':'
      · subst hc; decide
      simp [escapeOption, escapeChar, escapeChars, isOptionSpecial, hb, hq, hc]
    rw [step, one, ih, ← escapeChars_append, List.singleton_append]

theorem not_isOptionBlank_of_special {c : Char} (h : isOptionSpecial c = true) :
    isOptionBlank c = false := by
  simp only [isOptionSpecial, Bool.or_eq_true, decide_eq_true_eq] at h
  rcases h with (rfl | rfl) | rfl <;> decide

/-- A text as a body with blanks before and behind it. -/
structure Edges (cs lead body trail : List Char) : Prop where
  whole : cs = lead ++ (body ++ trail)
  leadBlank : ∀ c ∈ lead, isOptionBlank c = true
  trailBlank : ∀ c ∈ trail, isOptionBlank c = true
  first : ∀ c ∈ body.head?, isOptionBlank c = false
  last : ∀ c ∈ body.getLast?, isOptionBlank c = false
  nothing : body = [] → trail = []

theorem stop_dropWhile {p : Char → Bool} (cs : List Char) {c : Char}
    (h : c ∈ (cs.dropWhile p).head?) : p c = false := by
  have stop := List.head?_dropWhile_not p cs
  rw [Option.mem_def.mp h] at stop
  simpa using stop

theorem exists_edges (cs : List Char) : ∃ lead body trail, Edges cs lead body trail := by
  let rest := cs.dropWhile isOptionBlank
  let body := (rest.reverse.dropWhile isOptionBlank).reverse
  let trail := (rest.reverse.takeWhile isOptionBlank).reverse
  have hrest : rest = body ++ trail := by
    rw [← List.reverse_append, List.takeWhile_append_dropWhile, List.reverse_reverse]
  have htrail : ∀ c ∈ trail, isOptionBlank c = true := fun c hc =>
    List.mem_takeWhile_imp (List.mem_reverse.mp hc)
  refine ⟨cs.takeWhile isOptionBlank, body, trail, ?_, ?_, htrail, ?_, ?_, ?_⟩
  · rw [← hrest, List.takeWhile_append_dropWhile]
  · exact fun c hc => List.mem_takeWhile_imp hc
  · intro c hc
    apply stop_dropWhile cs
    change c ∈ rest.head?
    rw [hrest, List.head?_append, Option.mem_def.mp hc]
    rfl
  · intro c hc
    rw [List.getLast?_reverse] at hc
    exact stop_dropWhile _ hc
  · intro hbody
    rw [hbody, List.nil_append] at hrest
    cases hends : trail with
    | nil => rfl
    | cons c more =>
      have hblank := htrail c (hends ▸ List.mem_cons_self)
      have hfirst : isOptionBlank c = false := by
        apply stop_dropWhile cs
        change c ∈ rest.head?
        rw [hrest, hends]
        rfl
      rw [hfirst] at hblank
      contradiction

theorem takeWhile_append_of_stop {p : Char → Bool} {cs ds : List Char} (hcs : ∀ c ∈ cs, p c = true)
    (hds : ∀ c ∈ ds.head?, p c = false) : (cs ++ ds).takeWhile p = cs := by
  rw [List.takeWhile_append_of_pos hcs]
  cases ds with
  | nil => simp
  | cons d ds => simp [hds d rfl]

theorem dropWhile_append_of_stop {p : Char → Bool} {cs ds : List Char} (hcs : ∀ c ∈ cs, p c = true)
    (hds : ∀ c ∈ ds.head?, p c = false) : (cs ++ ds).dropWhile p = ds := by
  rw [List.dropWhile_append_of_pos hcs]
  cases ds with
  | nil => rfl
  | cons d ds => simp [hds d rfl]

theorem Edges.head_not_blank {cs lead body trail : List Char} (h : Edges cs lead body trail) :
    ∀ c ∈ (body ++ trail).head?, isOptionBlank c = false := by
  cases body with
  | nil => simp [h.nothing rfl]
  | cons d body => exact h.first

theorem escapeEdges_eq {cs lead body trail : List Char} (h : Edges cs lead body trail) :
    escapeEdges cs
      = escapeChars isOptionBlank lead ++ body ++ escapeChars isOptionBlank trail := by
  have hlead : cs.takeWhile isOptionBlank = lead := by
    rw [h.whole, takeWhile_append_of_stop h.leadBlank h.head_not_blank]
  have hrest : cs.dropWhile isOptionBlank = body ++ trail := by
    rw [h.whole, dropWhile_append_of_stop h.leadBlank h.head_not_blank]
  have htrail : ((body ++ trail).reverse.takeWhile isOptionBlank).reverse = trail := by
    rw [List.reverse_append, takeWhile_append_of_stop, List.reverse_reverse]
    · exact fun c hc => h.trailBlank c (List.mem_reverse.mp hc)
    · rw [List.head?_reverse]
      exact h.last
  have hbody : (body ++ trail).take ((body ++ trail).length - trail.length) = body := by simp
  simp only [escapeEdges, hlead, hrest, htrail, hbody]

theorem escapeChars_eq_self {special : Char → Bool} {cs : List Char}
    (h : ∀ c ∈ cs, special c = false) : escapeChars special cs = cs := by
  induction cs with
  | nil => rfl
  | cons c cs ih =>
    have tail := ih fun d hd => h d (List.mem_cons_of_mem c hd)
    rw [← List.singleton_append, escapeChars_append, tail]
    simp [escapeChars, h c List.mem_cons_self]

theorem getLast?_escapeChars (special : Char → Bool) (cs : List Char) :
    (escapeChars special cs).getLast? = cs.getLast? := by
  rcases List.eq_nil_or_concat' cs with rfl | ⟨ds, d, rfl⟩
  · rfl
  · rw [escapeChars_append, List.getLast?_append]
    by_cases hd : special d = true <;> simp [escapeChars, hd]

theorem head?_escapeOption_not_blank {cs : List Char}
    (h : ∀ c ∈ cs.head?, isOptionBlank c = false) :
    ∀ c ∈ (escapeOption cs).head?, isOptionBlank c = false := by
  rw [escapeOption_eq]
  cases cs with
  | nil => simp [escapeChars]
  | cons d ds =>
    by_cases hd : isOptionSpecial d = true
    · simp [escapeChars, hd, isOptionBlank]
    · simpa [escapeChars, hd] using h d rfl

/-- Escaping leaves blanks as they are, and none comes to an end of the body. -/
theorem Edges.escapeOption {cs lead body trail : List Char} (h : Edges cs lead body trail) :
    Edges (escapeOption cs) lead (escapeOption body) trail := by
  have blanks : ∀ {ds : List Char}, (∀ c ∈ ds, isOptionBlank c = true) →
      Filter.escapeOption ds = ds := by
    intro ds hds
    rw [escapeOption_eq]
    apply escapeChars_eq_self
    intro c hc
    by_contra hspecial
    have := not_isOptionBlank_of_special (by simpa using hspecial)
    rw [hds c hc] at this
    contradiction
  refine ⟨?_, h.leadBlank, h.trailBlank, head?_escapeOption_not_blank h.first, ?_, ?_⟩
  · rw [h.whole, escapeOption_eq, escapeChars_append, escapeChars_append, ← escapeOption_eq,
      ← escapeOption_eq, ← escapeOption_eq, blanks h.leadBlank, blanks h.trailBlank]
  · rw [escapeOption_eq, getLast?_escapeChars]
    exact h.last
  · intro hbody
    apply h.nothing
    cases body with
    | nil => rfl
    | cons c body =>
      rw [escapeOption_eq] at hbody
      by_cases hc : isOptionSpecial c = true <;> simp [escapeChars, hc] at hbody

def valueMarks (lead body trail : List Char) : List Mark :=
  (lead.map fun c => ⟨c, !isOptionBlank c⟩)
    ++ (body.map fun c => ⟨c, !isOptionSpecial c⟩) ++ trail.map fun c => ⟨c, !isOptionBlank c⟩

theorem Edges.unquotes {cs lead body trail : List Char} (h : Edges cs lead body trail) :
    Unquotes (escapeEdges (Filter.escapeOption cs)) (valueMarks lead body trail) := by
  have blanks : ∀ {ds : List Char}, (∀ c ∈ ds, isOptionBlank c = true) →
      Unquotes (escapeChars isOptionBlank ds) (ds.map fun c => ⟨c, !isOptionBlank c⟩) := by
    intro ds hds
    apply Unquotes.escapeChars
    intro c hc hblank
    rw [hds c hc] at hblank
    contradiction
  rw [escapeEdges_eq h.escapeOption, escapeOption_eq]
  refine ((blanks h.leadBlank).append (Unquotes.escapeChars ?_)).append (blanks h.trailBlank)
  intro c _ hspecial
  simp only [isOptionSpecial, Bool.or_eq_false_iff, decide_eq_false_iff_not] at hspecial
  exact hspecial.1

theorem Edges.chars_valueMarks {cs lead body trail : List Char} (h : Edges cs lead body trail) :
    Mark.chars (valueMarks lead body trail) = cs := by
  simp [valueMarks, h.whole]

theorem Edges.colon_not_mem {cs lead body trail : List Char} (h : Edges cs lead body trail) :
    (⟨':', true⟩ : Mark) ∉ valueMarks lead body trail := by
  simp only [valueMarks, List.mem_append, List.mem_map, Mark.mk.injEq, not_or]
  refine ⟨⟨?_, ?_⟩, ?_⟩
  · rintro ⟨c, hc, -, hbare⟩
    simp [h.leadBlank c hc] at hbare
  · rintro ⟨c, -, rfl, hbare⟩
    simp [isOptionSpecial] at hbare
  · rintro ⟨c, hc, -, hbare⟩
    simp [h.trailBlank c hc] at hbare

theorem readValue_eq {marks : List Mark}
    (hfirst : ∀ m ∈ marks.head?, Argument.isBareBlank m = false)
    (hlast : ∀ m ∈ marks.getLast?, Argument.isBareBlank m = false) :
    Argument.readValue marks = String.ofList (Mark.chars marks) := by
  have stays : ∀ {ms : List Mark}, (∀ m ∈ ms.head?, Argument.isBareBlank m = false) →
      ms.dropWhile Argument.isBareBlank = ms := by
    intro ms h
    cases ms with
    | nil => rfl
    | cons m ms => simp [h m rfl]
  rw [Argument.readValue, stays hfirst, stays, List.reverse_reverse]
  rwa [List.head?_reverse]

theorem Edges.readValue {cs lead body trail : List Char} (h : Edges cs lead body trail) :
    Argument.readValue (valueMarks lead body trail) = String.ofList cs := by
  have blanks : ∀ {ds : List Char}, (∀ c ∈ ds, isOptionBlank c = true) →
      ∀ m ∈ ds.map fun c => (⟨c, !isOptionBlank c⟩ : Mark), Argument.isBareBlank m = false := by
    intro ds hds m hm
    obtain ⟨c, hc, rfl⟩ := List.mem_map.mp hm
    simp [Argument.isBareBlank, hds c hc]
  have inBody : ∀ {c : Char}, isOptionBlank c = false →
      Argument.isBareBlank ⟨c, !isOptionSpecial c⟩ = false := by
    intro c hc
    simp [Argument.isBareBlank, hc]
  rw [readValue_eq, h.chars_valueMarks]
  · intro m hm
    cases lead with
    | cons c lead => exact blanks h.leadBlank m (by simp_all [valueMarks])
    | nil =>
      cases body with
      | cons c body =>
        obtain rfl : ⟨c, !isOptionSpecial c⟩ = m := by simpa [valueMarks] using hm
        exact inBody (h.first c rfl)
      | nil => simp [valueMarks, h.nothing rfl] at hm
  · intro m hm
    rcases List.eq_nil_or_concat' trail with rfl | ⟨ds, d, rfl⟩
    · rcases List.eq_nil_or_concat' body with rfl | ⟨ds, d, rfl⟩
      · exact blanks h.leadBlank m (List.mem_of_getLast? (by simpa [valueMarks] using hm))
      · obtain rfl : ⟨d, !isOptionSpecial d⟩ = m := by simpa [valueMarks] using hm
        exact inBody (h.last d (by simp))
    · apply blanks h.trailBlank m
      simp_all [valueMarks]

end ClipRender.Filter
