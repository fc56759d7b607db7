import ClipRender.Filter.Formula

set_option autoImplicit false

/-!
The text of an expression against the engine's reading of it. The engine finds the expression's own
operations, each with its own operands: what the text puts in brackets, and what it leaves out of
them, is what the rank and the grouping of the operators need.
-/

namespace ClipRender.Filter

def Expression.formula : Expression → Formula
  | .number n => .number n.toNat
  | .size which => .size which
  | .sub a b => .sub a.formula b.formula
  | .mul a b => .mul a.formula b.formula
  | .div a b => .div a.formula b.formula
  | .trunc a => .trunc a.formula
  | .ifGreater a b yes no => .choose (.greater a.formula b.formula) yes.formula no.formula

/-- No number in it has a minus sign. -/
def Expression.Unsigned : Expression → Prop
  | .number n => 0 ≤ n
  | .size _ => True
  | .sub a b => a.Unsigned ∧ b.Unsigned
  | .mul a b => a.Unsigned ∧ b.Unsigned
  | .div a b => a.Unsigned ∧ b.Unsigned
  | .trunc a => a.Unsigned
  | .ifGreater a b yes no => a.Unsigned ∧ b.Unsigned ∧ yes.Unsigned ∧ no.Unsigned

namespace Formula

open Reading

variable {cs ds : List Char} {f g : Formula}

theorem Reading.steps?_append (r : Reading) :
    r.steps? (cs ++ ds) = (r.steps? cs).bind fun s => s.steps? ds := List.foldlM_append

theorem Reading.steps?_snoc (r : Reading) (c : Char) :
    r.steps? (cs ++ [c]) = (r.steps? cs).bind fun s => s.step? c := by
  simp [steps?]

/-- An operand whatever operators stand before it. -/
def ReadsAsFactor (cs : List Char) (f : Formula) : Prop :=
  ∀ sum product opened, ∃ s, (await sum product opened).steps? cs = some s ∧
    s.operand? = some (product f) ∧ s.sum = sum ∧ s.opened = opened

/-- Factors, if no factor stands before them. -/
def ReadsAsTerm (cs : List Char) (f : Formula) : Prop :=
  ∀ sum opened, ∃ s, (await sum id opened).steps? cs = some s ∧
    s.operand? = some f ∧ s.sum = sum ∧ s.opened = opened

/-- Terms, if nothing stands before them. -/
def ReadsAsSum (cs : List Char) (f : Formula) : Prop :=
  ∀ opened, ∃ s, (await id id opened).steps? cs = some s ∧ s.total? = some f ∧ s.opened = opened

theorem ReadsAsFactor.term (h : ReadsAsFactor cs f) : ReadsAsTerm cs f :=
  fun sum opened => h sum id opened

theorem ReadsAsTerm.sum (h : ReadsAsTerm cs f) : ReadsAsSum cs f := by
  intro opened
  obtain ⟨s, hsteps, hoperand, hsum, hopened⟩ := h id opened
  exact ⟨s, hsteps, by rw [total?, hoperand, hsum]; rfl, hopened⟩

section Operators

theorem ReadsAsSum.sub (hf : ReadsAsSum cs f) (hg : ReadsAsTerm ds g) :
    ReadsAsSum (cs ++ '-' :: ds) (.sub f g) := by
  intro opened
  obtain ⟨s, hsteps, htotal, rfl⟩ := hf opened
  obtain ⟨t, hmore, hoperand, hsum, hopened⟩ := hg (.sub f) s.opened
  have hminus : s.step? '-' = some (await (.sub f) id s.opened) := by
    rw [step?, htotal]
    rfl
  refine ⟨t, ?_, by rw [total?, hoperand, hsum]; rfl, hopened⟩
  rw [← List.singleton_append, ← List.append_assoc, steps?_append, steps?_snoc, hsteps,
    Option.bind_some, hminus, Option.bind_some, hmore]

/-- An operator among factors puts what stands before it around the next factor. -/
theorem ReadsAsTerm.operator {c : Char} {op : Formula → Formula → Formula}
    (hstep : ∀ (s : Reading) f, s.operand? = some f →
      s.step? c = some (await s.sum (op f) s.opened))
    (hf : ReadsAsTerm cs f) (hg : ReadsAsFactor ds g) : ReadsAsTerm (cs ++ c :: ds) (op f g) := by
  intro sum opened
  obtain ⟨s, hsteps, hoperand, rfl, rfl⟩ := hf sum opened
  obtain ⟨t, hmore, hproduct, hsum, hopened⟩ := hg s.sum (op f) s.opened
  refine ⟨t, ?_, hproduct, hsum, hopened⟩
  rw [← List.singleton_append, ← List.append_assoc, steps?_append, steps?_snoc, hsteps,
    Option.bind_some, hstep s f hoperand, Option.bind_some, hmore]

theorem ReadsAsTerm.mul (hf : ReadsAsTerm cs f) (hg : ReadsAsFactor ds g) :
    ReadsAsTerm (cs ++ '*' :: ds) (.mul f g) := by
  refine ReadsAsTerm.operator (fun s f hoperand => ?_) hf hg
  rw [step?, hoperand]
  rfl

theorem ReadsAsTerm.div (hf : ReadsAsTerm cs f) (hg : ReadsAsFactor ds g) :
    ReadsAsTerm (cs ++ '/' :: ds) (.div f g) := by
  refine ReadsAsTerm.operator (fun s f hoperand => ?_) hf hg
  rw [step?, hoperand]
  rfl

end Operators

section Words

theorem steps?_word {word : List Char} (hword : ∀ c ∈ word, Argument.isNameChar c = true)
    (sum product : Formula → Formula) (opened : List Bracket) (before : List Char) :
    (Reading.mk sum product before none opened).steps? word
      = some ⟨sum, product, before ++ word, none, opened⟩ := by
  induction word generalizing before with
  | nil => simp [steps?]
  | cons c rest ih =>
    rw [List.forall_mem_cons] at hword
    have hstep : (Reading.mk sum product before none opened).step? c
        = some ⟨sum, product, before ++ [c], none, opened⟩ := by
      rw [step?, if_pos hword.1]
      rfl
    have hrest := ih hword.2 (before ++ [c])
    rw [List.append_assoc, List.singleton_append] at hrest
    rw [steps?, List.foldlM_cons, hstep]
    exact hrest

theorem ReadsAsFactor.word (hsome : cs ≠ []) (hword : ∀ c ∈ cs, Argument.isNameChar c = true)
    (hf : word? cs = some f) : ReadsAsFactor cs f := by
  intro sum product opened
  refine ⟨_, steps?_word hword sum product opened [], ?_, rfl, rfl⟩
  simp [operand?, hsome, hf]

theorem ReadsAsFactor.number (n : Nat) : ReadsAsFactor (toString n).toList (.number n) := by
  have hchars : (toString n).toList = Nat.toDigits 10 n := by simp
  have hdigit : ∀ c ∈ Nat.toDigits 10 n, c.isDigit = true :=
    fun c hc => Nat.isDigit_of_mem_toDigits (by decide) (by decide) hc
  rw [hchars]
  apply ReadsAsFactor.word Nat.toDigits_ne_nil
  · intro c hc
    simp [Argument.isNameChar, Char.isAlphanum, hdigit c hc]
  · have hvalue : Decimal.digitsValue (Nat.toDigits 10 n) = n :=
      Nat.ofDigitChars_toDigits (by decide) (by decide)
    rw [word?, if_pos (List.all_eq_true.mpr hdigit), hvalue]

theorem ReadsAsFactor.size (which : FrameSize) : ReadsAsFactor which.name.toList (.size which) := by
  cases which <;> exact .word (by decide) (List.all_eq_true.mp (by decide)) (by decide)

end Words

section Brackets

variable {bracket : Bracket} {opened : List Bracket}

theorem steps?_open {name : List Char} (hname : name.all Argument.isNameChar = true)
    (sum product : Formula → Formula) (opened : List Bracket) :
    (await sum product opened).steps? (name ++ ['('])
      = some (await id id (⟨sum, product, name, []⟩ :: opened)) := by
  rw [steps?_snoc, await, steps?_word (List.all_eq_true.mp hname)]
  rfl

theorem steps?_argument (hf : ReadsAsSum cs f) (hname : bracket.name ≠ []) :
    (await id id (bracket :: opened)).steps? (cs ++ [','])
      = some (await id id ({ bracket with arguments := bracket.arguments ++ [f] } :: opened)) := by
  obtain ⟨s, hsteps, htotal, hopened⟩ := hf (bracket :: opened)
  have hnext : s.nextArgument? f
      = some (await id id ({ bracket with arguments := bracket.arguments ++ [f] } :: opened)) := by
    rw [nextArgument?, hopened]
    exact if_neg hname
  have hcomma : s.step? ',' = s.nextArgument? f := by
    rw [step?, htotal]
    rfl
  rw [steps?_snoc, hsteps, Option.bind_some, hcomma, hnext]

theorem steps?_close (hf : ReadsAsSum cs f) (hg : bracket.close? f = some g) :
    (await id id (bracket :: opened)).steps? (cs ++ [')'])
      = some ⟨bracket.sum, id, [], some (bracket.product g), opened⟩ := by
  obtain ⟨s, hsteps, htotal, hopened⟩ := hf (bracket :: opened)
  have hclose : s.step? ')' = s.close? f := by
    rw [step?, htotal]
    rfl
  rw [steps?_snoc, hsteps, Option.bind_some, hclose, Reading.close?, hopened]
  simp [hg]

theorem ReadsAsFactor.of_closed
    (h : ∀ sum product opened, (await sum product opened).steps? cs
      = some ⟨sum, id, [], some (product f), opened⟩) : ReadsAsFactor cs f :=
  fun sum product opened => ⟨_, h sum product opened, rfl, rfl, rfl⟩

theorem ReadsAsSum.enclosed (hf : ReadsAsSum cs f) :
    ReadsAsFactor ("(".toList ++ (cs ++ [')'])) f := by
  refine .of_closed fun sum product opened => ?_
  have hopen := steps?_open (by decide : "".toList.all _ = true) sum product opened
  rw [steps?_append]
  refine (congrArg (Option.bind · _) hopen).trans ?_
  exact steps?_close hf rfl

theorem ReadsAsSum.trunc (hf : ReadsAsSum cs f) :
    ReadsAsFactor ("trunc(".toList ++ (cs ++ [')'])) (.trunc f) := by
  refine .of_closed fun sum product opened => ?_
  have hopen := steps?_open (by decide : "trunc".toList.all _ = true) sum product opened
  rw [steps?_append]
  refine (congrArg (Option.bind · _) hopen).trans ?_
  exact steps?_close hf rfl

theorem ReadsAsSum.greater (hf : ReadsAsSum cs f) (hg : ReadsAsSum ds g) :
    ReadsAsFactor ("gt(".toList ++ ((cs ++ [',']) ++ (ds ++ [')']))) (.greater f g) := by
  refine .of_closed fun sum product opened => ?_
  have hopen := steps?_open (by decide : "gt".toList.all _ = true) sum product opened
  rw [steps?_append]
  refine (congrArg (Option.bind · _) hopen).trans ?_
  rw [Option.bind_some, steps?_append, steps?_argument hf (by decide : "gt".toList ≠ []),
    Option.bind_some]
  exact steps?_close hg rfl

theorem ReadsAsSum.choose {es : List Char} {h : Formula} (hf : ReadsAsSum cs f)
    (hg : ReadsAsSum ds g) (hh : ReadsAsSum es h) :
    ReadsAsFactor ("if(".toList ++ ((cs ++ [',']) ++ ((ds ++ [',']) ++ (es ++ [')']))))
      (.choose f g h) := by
  refine .of_closed fun sum product opened => ?_
  have hopen := steps?_open (by decide : "if".toList.all _ = true) sum product opened
  rw [steps?_append]
  refine (congrArg (Option.bind · _) hopen).trans ?_
  rw [Option.bind_some, steps?_append, steps?_argument hf (by decide : "if".toList ≠ []),
    Option.bind_some, steps?_append, steps?_argument hg (by decide : "if".toList ≠ []),
    Option.bind_some]
  exact steps?_close hh rfl

end Brackets

end Formula

open Formula

/-- The text at each of the three levels. -/
structure Expression.Reads (e : Expression) : Prop where
  sum : ReadsAsSum (e.textAt 0).toList e.formula
  term : ReadsAsTerm (e.textAt 1).toList e.formula
  factor : ReadsAsFactor (e.textAt 2).toList e.formula

section Levels

variable {e : Expression} {s : String}

theorem readsAsFactor_enclosed (h : ReadsAsSum s.toList e.formula) :
    ReadsAsFactor (Expression.enclosed true s).toList e.formula := by
  simpa [Expression.enclosed] using h.enclosed

theorem Expression.Reads.of_factor (h : ReadsAsFactor s.toList e.formula)
    (hsame : ∀ level, e.textAt level = s) : e.Reads := by
  constructor
  · rw [hsame]
    exact h.term.sum
  · rw [hsame]
    exact h.term
  · rw [hsame]
    exact h

theorem Expression.Reads.of_term (h : ReadsAsTerm s.toList e.formula)
    (hsame : ∀ level, e.textAt level = enclosed (1 < level) s) : e.Reads := by
  constructor
  · rw [hsame]
    exact h.sum
  · rw [hsame]
    exact h
  · rw [hsame]
    exact readsAsFactor_enclosed h.sum

theorem Expression.Reads.of_sum (h : ReadsAsSum s.toList e.formula)
    (hsame : ∀ level, e.textAt level = enclosed (0 < level) s) : e.Reads := by
  constructor
  · rw [hsame]
    exact h
  · rw [hsame]
    exact (readsAsFactor_enclosed h).term
  · rw [hsame]
    exact readsAsFactor_enclosed h

end Levels

theorem Expression.reads (e : Expression) (h : e.Unsigned) : e.Reads := by
  induction e with
  | number n =>
    obtain ⟨k, rfl⟩ := Int.eq_ofNat_of_zero_le h
    exact .of_factor (ReadsAsFactor.number k) fun _ => rfl
  | size which => exact .of_factor (ReadsAsFactor.size which) fun _ => rfl
  | sub a b iha ihb =>
    have htext : (textAt 0 a ++ "-" ++ textAt 1 b).toList
        = (textAt 0 a).toList ++ '-' :: (textAt 1 b).toList := by simp
    have hsub := (iha h.1).sum.sub (ihb h.2).term
    rw [← htext] at hsub
    exact .of_sum hsub fun _ => rfl
  | mul a b iha ihb =>
    have htext : (textAt 1 a ++ "*" ++ textAt 2 b).toList
        = (textAt 1 a).toList ++ '*' :: (textAt 2 b).toList := by simp
    have hmul := (iha h.1).term.mul (ihb h.2).factor
    rw [← htext] at hmul
    exact .of_term hmul fun _ => rfl
  | div a b iha ihb =>
    have htext : (textAt 1 a ++ "/" ++ textAt 2 b).toList
        = (textAt 1 a).toList ++ '/' :: (textAt 2 b).toList := by simp
    have hdiv := (iha h.1).term.div (ihb h.2).factor
    rw [← htext] at hdiv
    exact .of_term hdiv fun _ => rfl
  | trunc a ih =>
    have htext : ("trunc(" ++ textAt 0 a ++ ")").toList
        = "trunc(".toList ++ ((textAt 0 a).toList ++ [')']) := by simp
    have htrunc := (ih h).sum.trunc
    rw [← htext] at htrunc
    exact .of_factor htrunc fun _ => rfl
  | ifGreater a b yes no iha ihb ihyes ihno =>
    have htext : ("if(gt(" ++ textAt 0 a ++ "," ++ textAt 0 b ++ ")," ++ textAt 0 yes ++ ","
          ++ textAt 0 no ++ ")").toList
        = "if(".toList ++ (("gt(".toList ++ (((textAt 0 a).toList ++ [','])
          ++ ((textAt 0 b).toList ++ [')'])) ++ [',']) ++ (((textAt 0 yes).toList ++ [','])
          ++ ((textAt 0 no).toList ++ [')']))) := by simp
    have hcondition := ((iha h.1).sum.greater (ihb h.2.1).sum).term.sum
    have hchoose := hcondition.choose (ihyes h.2.2.1).sum (ihno h.2.2.2).sum
    rw [← htext] at hchoose
    exact .of_factor hchoose fun _ => rfl

theorem Formula.read?_text {e : Expression} (h : e.Unsigned) :
    Formula.read? e.text = some e.formula := by
  obtain ⟨r, hsteps, htotal, hopened⟩ := (e.reads h).sum []
  rw [Formula.read?, Expression.text, hsteps]
  simp [hopened, htotal]

/-- Operators of one rank group to the left. -/
example : Formula.read? "6/3*2-1"
    = some (.sub (.mul (.div (.number 6) (.number 3)) (.number 2)) (.number 1)) := by decide

end ClipRender.Filter
