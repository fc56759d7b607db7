import ClipRender.Proofs.PlainText

set_option autoImplicit false

/-!
One argument of a filter through both readers. Text of the user is embedded, expressions are quoted
or have their commas escaped, and everything else needs no quoting; each way the engine finds the
name and the value that were meant.
-/

namespace ClipRender.Filter

/-- The graph's reader leaves the text to the option's reader, as a part of one filter. -/
def Carries (cs text : List Char) : Prop :=
  ∃ marks, Unquotes cs marks ∧ Mark.chars marks = text ∧
    ∀ m ∈ marks, m.bare = true → isGraphSpecial m.char = false

namespace Carries

theorem nil : Carries [] [] := ⟨[], Unquotes.nil, rfl, by simp⟩

theorem chars_eq {cs text : List Char} (h : Carries cs text) :
    Mark.chars (unquote false cs) = text := by
  obtain ⟨marks, hmarks, hchars, -⟩ := h
  rw [hmarks.unquote_eq, hchars]

theorem append {cs ds text more : List Char} (h : Carries cs text) (k : Carries ds more) :
    Carries (cs ++ ds) (text ++ more) := by
  obtain ⟨ms, hms, rfl, hquiet⟩ := h
  obtain ⟨ns, hns, rfl, kquiet⟩ := k
  refine ⟨ms ++ ns, hms.append hns, Mark.chars_append ms ns, ?_⟩
  intro m hm
  rcases List.mem_append.mp hm with hm | hm
  · exact hquiet m hm
  · exact kquiet m hm

theorem escapeChars {special : Char → Bool} {cs : List Char}
    (h : ∀ c ∈ cs, special c = false → isGraphSpecial c = false) :
    Carries (escapeChars special cs) cs := by
  refine ⟨cs.map fun c => ⟨c, !special c⟩, Unquotes.escapeChars ?_, Mark.chars_map cs _, ?_⟩
  · intro c hc hspecial
    have hquiet := h c hc hspecial
    simp only [isGraphSpecial, Bool.or_eq_false_iff, decide_eq_false_iff_not] at hquiet
    exact hquiet.1.1.1.1
  · intro m hm hbare
    obtain ⟨c, hc, rfl⟩ := List.mem_map.mp hm
    exact h c hc (by simpa using hbare)

theorem escapeGraph (cs : List Char) : Carries (escapeGraph cs) cs := escapeChars fun _ _ h => h

theorem plain {cs : List Char} (h : ∀ c ∈ cs, isGraphSpecial c = false) : Carries cs cs := by
  have all : Carries (Filter.escapeChars (fun _ => false) cs) cs := escapeChars fun c hc _ => h c hc
  rwa [escapeChars_eq_self fun _ _ => rfl] at all

theorem quoted {cs : List Char} (h : '\'' ∉ cs) : Carries ('\'' :: (cs ++ ['\''])) cs := by
  refine ⟨cs.map fun c => ⟨c, false⟩, Unquotes.quoted h, Mark.chars_map cs _, ?_⟩
  intro m hm hbare
  obtain ⟨c, -, rfl⟩ := List.mem_map.mp hm
  contradiction

theorem intercalate {sep : Char} (hsep : isGraphSpecial sep = false) {parts texts : List (List Char)}
    (h : List.Forall₂ Carries parts texts) :
    Carries ([sep].intercalate parts) ([sep].intercalate texts) := by
  induction h with
  | nil => exact nil
  | @cons cs text parts texts head tail ih =>
    cases tail with
    | nil => simpa using head
    | cons next rest =>
      have separator : Carries [sep] [sep] := plain (by simpa using hsep)
      simpa using head.append (separator.append ih)

end Carries

def Gives (text : List Char) (argument : Argument) : Prop :=
  ∃ marks, Unquotes text marks ∧ ⟨':', true⟩ ∉ marks ∧ Argument.read marks = argument

def isArgumentName (s : String) : Bool := !s.toList.isEmpty && s.toList.all Argument.isNameChar

theorem not_isReserved_of_isNameChar {c : Char} (h : Argument.isNameChar c = true) :
    isReserved c = false := by
  apply not_isReserved_of_isPlain
  simp only [Argument.isNameChar, Bool.or_eq_true, decide_eq_true_eq] at h
  rcases h with h | rfl
  · simp [isPlain, h]
  · decide

theorem Argument.read_named {name : String} (hname : isArgumentName name = true)
    (marks : List Mark) :
    Argument.read ((name.toList.map fun c => ⟨c, true⟩) ++ [⟨'=', true⟩] ++ marks)
      = ⟨some name, Argument.readValue marks⟩ := by
  simp only [isArgumentName, Bool.and_eq_true, List.all_eq_true] at hname
  obtain ⟨hsome, hchars⟩ := hname
  have isName : ∀ m ∈ name.toList.map fun c => (⟨c, true⟩ : Mark),
      (m.bare && isNameChar m.char) = true := by
    intro m hm
    obtain ⟨c, hc, rfl⟩ := List.mem_map.mp hm
    simpa using hchars c hc
  have stop : (true && isNameChar '=') = false := by decide
  rw [Argument.read, List.append_assoc, List.singleton_append]
  simp only [List.takeWhile_append_of_pos isName, List.dropWhile_append_of_pos isName,
    List.takeWhile_cons, List.dropWhile_cons, stop]
  cases hcs : name.toList with
  | nil => simp [hcs] at hsome
  | cons c cs =>
    have hback : String.ofList (c :: cs) = name := by rw [← hcs, String.ofList_toList]
    simp [Mark.chars, Function.comp_def, hback]

theorem Argument.read_positional {marks : List Mark} (h : ⟨'=', true⟩ ∉ marks) :
    Argument.read marks = ⟨none, Argument.readValue marks⟩ := by
  rw [Argument.read]
  split
  · next value _ hdrop =>
    have hmem : (⟨'=', true⟩ : Mark) ∈ marks := by
      apply (List.dropWhile_suffix _).subset
      rw [hdrop]
      exact List.mem_cons_self
    exact absurd hmem h
  · rfl

theorem quiet_of_expression {c : Char} (h : isPlain c = true ∨ c = ',') :
    isOptionSpecial c = false ∧ isOptionBlank c = false ∧ c ≠ '=' := by
  rcases h with h | rfl
  · have hquiet := not_isReserved_of_isPlain h
    simp only [isReserved, Bool.or_eq_false_iff, decide_eq_false_iff_not] at hquiet
    exact ⟨hquiet.1.1.2, hquiet.1.2, hquiet.2⟩
  · decide

namespace Gives

theorem ofName {name : String} (hname : isArgumentName name = true) {text : List Char}
    {marks : List Mark} (h : Unquotes text marks) (hcolon : ⟨':', true⟩ ∉ marks) :
    Gives (name.toList ++ ['='] ++ text) ⟨some name, Argument.readValue marks⟩ := by
  have hquiet : ∀ c ∈ name.toList, isReserved c = false := by
    intro c hc
    rw [isArgumentName, Bool.and_eq_true, List.all_eq_true] at hname
    exact not_isReserved_of_isNameChar (hname.2 c hc)
  have hchars : Unquotes name.toList (name.toList.map fun c => ⟨c, true⟩) := by
    apply Unquotes.plain
    intro c hc
    constructor
    · rintro rfl
      exact absurd (hquiet _ hc) (by decide)
    · rintro rfl
      exact absurd (hquiet _ hc) (by decide)
  have hsign : Unquotes ['='] [⟨'=', true⟩] := Unquotes.bare (by decide) (by decide)
  refine ⟨_, (hchars.append hsign).append h, ?_, Argument.read_named hname marks⟩
  intro hmem
  rw [List.append_assoc] at hmem
  rcases List.mem_append.mp hmem with hmem | hmem
  · obtain ⟨c, hc, hmark⟩ := List.mem_map.mp hmem
    obtain rfl : c = ':' := congrArg Mark.char hmark
    exact absurd (hquiet _ hc) (by decide)
  · rcases List.mem_cons.mp hmem with hmem | hmem
    · simp at hmem
    · exact hcolon hmem

theorem embedded {name : String} (hname : isArgumentName name = true) (value : String) :
    Gives (name.toList ++ ['='] ++ escapeEdges (escapeOption value.toList)) ⟨some name, value⟩ := by
  obtain ⟨lead, body, trail, h⟩ := exists_edges value.toList
  have all := ofName hname h.unquotes h.colon_not_mem
  rwa [h.readValue, String.ofList_toList] at all

section Expression

variable {value : String} (h : ExpressionText value)

include h

theorem unquotes_expression : Unquotes value.toList (value.toList.map fun c => ⟨c, true⟩) := by
  apply Unquotes.plain
  intro c hc
  have hquiet := (quiet_of_expression (h c hc)).1
  simp only [isOptionSpecial, Bool.or_eq_false_iff, decide_eq_false_iff_not] at hquiet
  exact hquiet.1

theorem not_mem_expression {d : Char} (hd : d = ':' ∨ d = '=') :
    ⟨d, true⟩ ∉ value.toList.map fun c => (⟨c, true⟩ : Mark) := by
  intro hmem
  obtain ⟨c, hc, hmark⟩ := List.mem_map.mp hmem
  obtain rfl : c = d := congrArg Mark.char hmark
  have hquiet := quiet_of_expression (h c hc)
  rcases hd with rfl | rfl
  · exact absurd hquiet.1 (by decide)
  · exact hquiet.2.2 rfl

theorem readValue_expression :
    Argument.readValue (value.toList.map fun c => ⟨c, true⟩) = value := by
  have notBlank : ∀ m ∈ value.toList.map fun c => (⟨c, true⟩ : Mark),
      Argument.isBareBlank m = false := by
    intro m hm
    obtain ⟨c, hc, rfl⟩ := List.mem_map.mp hm
    simp [Argument.isBareBlank, (quiet_of_expression (h c hc)).2.1]
  rw [readValue_eq, Mark.chars_map, String.ofList_toList]
  · exact fun m hm => notBlank m (List.mem_of_head? hm)
  · exact fun m hm => notBlank m (List.mem_of_getLast? hm)

theorem positional : Gives value.toList ⟨none, value⟩ := by
  refine ⟨_, unquotes_expression h, not_mem_expression h (.inl rfl), ?_⟩
  rw [Argument.read_positional (not_mem_expression h (.inr rfl)), readValue_expression h]

theorem named {name : String} (hname : isArgumentName name = true) :
    Gives (name.toList ++ ['='] ++ value.toList) ⟨some name, value⟩ := by
  have all := ofName hname (unquotes_expression h) (not_mem_expression h (.inl rfl))
  rwa [readValue_expression h] at all

end Expression

end Gives

def ReadsAs (cs : List Char) (argument : Argument) : Prop :=
  ∃ text, Carries cs text ∧ Gives text argument

theorem not_isGraphSpecial_of_isPlain {c : Char} (h : isPlain c = true) :
    isGraphSpecial c = false := by
  have hquiet := not_isReserved_of_isPlain h
  simp only [isReserved, Bool.or_eq_false_iff] at hquiet
  exact hquiet.1.1.1

namespace ReadsAs

variable {name label value : String}

theorem carries_label (hname : isArgumentName name = true) :
    Carries (name.toList ++ ['=']) (name.toList ++ ['=']) := by
  apply Carries.plain
  intro c hc
  rcases List.mem_append.mp hc with hc | hc
  · rw [isArgumentName, Bool.and_eq_true, List.all_eq_true] at hname
    have hquiet := not_isReserved_of_isNameChar (hname.2 c hc)
    simp only [isReserved, Bool.or_eq_false_iff] at hquiet
    exact hquiet.1.1.1
  · obtain rfl := List.mem_singleton.mp hc
    decide

theorem embedded (hlabel : label.toList = name.toList ++ ['='])
    (hname : isArgumentName name = true) (value : String) :
    ReadsAs (label ++ embedText value).toList ⟨some name, value⟩ := by
  refine ⟨_, ?_, Gives.embedded hname value⟩
  rw [String.toList_append, embedText, String.toList_ofList, hlabel]
  exact (carries_label hname).append (Carries.escapeGraph _)

theorem named (hlabel : label.toList = name.toList ++ ['='])
    (hname : isArgumentName name = true) (h : PlainText value) :
    ReadsAs (label ++ value).toList ⟨some name, value⟩ := by
  refine ⟨_, ?_, Gives.named (ExpressionText.ofPlain h) hname⟩
  rw [String.toList_append, hlabel]
  exact (carries_label hname).append
    (Carries.plain fun c hc => not_isGraphSpecial_of_isPlain (h c hc))

theorem quoted (hlabel : label.toList = name.toList ++ ['=', '\''])
    (hname : isArgumentName name = true) (h : ExpressionText value) :
    ReadsAs (label ++ value ++ "'").toList ⟨some name, value⟩ := by
  refine ⟨_, ?_, Gives.named h hname⟩
  have inside : '\'' ∉ value.toList := by
    intro hmem
    exact absurd (quiet_of_expression (h _ hmem)).1 (by decide)
  have whole : (label ++ value ++ "'").toList
      = (name.toList ++ ['=']) ++ '\'' :: (value.toList ++ ['\'']) := by
    simp [hlabel]
  rw [whole]
  exact (carries_label hname).append (Carries.quoted inside)

theorem positional (h : PlainText value) : ReadsAs value.toList ⟨none, value⟩ :=
  ⟨_, Carries.plain fun c hc => not_isGraphSpecial_of_isPlain (h c hc),
    Gives.positional (ExpressionText.ofPlain h)⟩

theorem escapedCommas (h : ExpressionText value) :
    ReadsAs (Crop.escapeCommas value).toList ⟨none, value⟩ := by
  have same : (Crop.escapeCommas value).toList = escapeChars (· = ',') value.toList := by
    simp [Crop.escapeCommas, escapeChars]
  refine ⟨value.toList, ?_, Gives.positional h⟩
  rw [same]
  apply Carries.escapeChars
  intro c hc hcomma
  rcases h c hc with hplain | rfl
  · exact not_isGraphSpecial_of_isPlain hplain
  · simp at hcomma

end ReadsAs

end ClipRender.Filter
