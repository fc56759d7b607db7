import ClipRender.Proofs.Files.Finding

set_option autoImplicit false

/-!
Where the system comes to along a path, the way leads that replaces each link by its target. The
system reads the target as a trail, the way reads it as texts between slashes.
-/

namespace ClipRender.Files

variable {tree : Tree} {n : Nat} {here place : Location} {name : String}
  {names steps rest : List String}

/-- The steps that lead elsewhere. -/
def strides (steps : List String) : List String := steps.filter fun text => text ≠ "" ∧ text ≠ "."

theorem strides_append (first second : List String) :
    strides (first ++ second) = strides first ++ strides second := List.filter_append ..

theorem strides_skip {text : String} (h : text = "" ∨ text = ".") :
    strides (text :: steps) = strides steps := by
  rw [strides, List.filter_cons_of_neg]
  · rfl
  · rcases h with rfl | rfl <;> simp

theorem strides_cons {text : String} (h : ¬ (text = "" ∨ text = ".")) :
    strides (text :: steps) = text :: strides steps := by
  rw [strides, List.filter_cons_of_pos]
  · rfl
  · simpa [not_or] using h

theorem Named.leads (h : Named name) : ¬ (name = "" ∨ name = ".") :=
  not_or.mpr ⟨h.not_empty, h.not_dot⟩

namespace Resolves

theorem skips {idle : List String} (hidle : ∀ text ∈ idle, text = "" ∨ text = ".")
    (h : Resolves tree n here steps place) : Resolves tree n here (idle ++ steps) place := by
  induction idle with
  | nil => exact h
  | cons text idle ih =>
    exact .skip (hidle text List.mem_cons_self)
      (ih fun other hother => hidle other (List.mem_cons_of_mem text hother))

theorem next_stride {text : String} {more : List String} (h : strides steps = text :: more) :
    ∃ idle later, steps = idle ++ text :: later ∧ (∀ other ∈ idle, other = "" ∨ other = ".") ∧
      strides later = more := by
  obtain ⟨idle, later, hsplit, hidle, _, hmore⟩ := List.filter_eq_cons_iff.mp h
  refine ⟨idle, later, hsplit, fun other hother => ?_, hmore⟩
  have := hidle other hother
  simp only [decide_eq_true_eq, not_and_or, not_not] at this
  exact this

theorem of_strides (h : Resolves tree n here names place) (hsame : strides steps = strides names) :
    Resolves tree n here steps place := by
  induction h generalizing steps with
  | stay =>
    have hidle : ∀ text ∈ steps, text = "" ∨ text = "." := by
      intro text htext
      have := List.filter_eq_nil_iff.mp hsame text htext
      simpa only [decide_eq_true_eq, not_and_or, not_not] using this
    rw [← List.append_nil steps]
    exact skips hidle .stay
  | skip hname _ ih => exact ih (hsame.trans (strides_skip hname))
  | up hname _ ih =>
    subst hname
    obtain ⟨idle, later, rfl, hidle, hlater⟩ := next_stride (hsame.trans (strides_cons (by decide)))
    exact skips hidle (.up rfl (ih hlater))
  | down hname hentry _ ih =>
    obtain ⟨idle, later, rfl, hidle, hlater⟩ := next_stride (hsame.trans (strides_cons hname.leads))
    exact skips hidle (.down hname hentry (ih hlater))
  | link hname hentry _ ih =>
    obtain ⟨idle, later, rfl, hidle, hlater⟩ := next_stride (hsame.trans (strides_cons hname.leads))
    refine skips hidle (.link hname hentry (ih ?_))
    rw [strides_append, strides_append, hlater]

end Resolves

theorem strides_words (all : List (List Char)) :
    strides ((all.filter (!·.isEmpty)).map String.ofList) = strides (all.map String.ofList) := by
  induction all with
  | nil => rfl
  | cons first all ih =>
    cases first with
    | nil => exact ih.trans (strides_skip (.inl rfl)).symm
    | cons c first =>
      rw [List.filter_cons_of_pos (by rfl), List.map_cons, List.map_cons]
      by_cases hskip : String.ofList (c :: first) = "" ∨ String.ofList (c :: first) = "."
      · rw [strides_skip hskip, strides_skip hskip, ih]
      · rw [strides_cons hskip, strides_cons hskip, ih]

theorem Pending.texts_words (all : List (List Char)) :
    texts (all.map fun cs => piece (String.ofList cs)) = all.map String.ofList := by
  rw [← texts_pieces (all.map String.ofList), List.map_map]
  rfl

theorem anchorOf_relative {cs : List Char} (h : anchorOf cs ≠ .relative) :
    ∃ rest, cs = '/' :: rest := by
  unfold anchorOf at h
  split at h
  · exact ⟨_, rfl⟩
  · exact ⟨_, rfl⟩
  · exact ⟨_, rfl⟩
  · exact absurd rfl h

theorem strides_target (target : String) : strides (Trail.ofText target).steps =
    strides (Pending.texts (Pending.ofTarget target)) := by
  have hsteps : strides (Trail.ofText target).steps =
      strides ((pieces target.toList).map String.ofList) := by
    rw [Trail.steps, strides_append, ← strides_words]
    split
    · exact List.append_nil _
    · exact List.append_nil _
  rw [hsteps, Pending.ofTarget]
  split
  · rw [Pending.texts_words]
  · next hanchor =>
    obtain ⟨rest, hrest⟩ := anchorOf_relative hanchor
    rw [hrest, pieces, if_pos rfl, List.map_cons, strides_skip (.inl rfl), List.map_cons,
      List.tail_cons, Pending.texts_words]

/-- Where the system comes to, the way leads. -/
theorem Walks.resolves (h : Walks tree true n here names place) (hnames : ∀ name ∈ names, name ≠ "") :
    Resolves tree n here names place := by
  induction h with
  | stay => exact .stay
  | @dot _ _ _ name _ hname _ ih =>
    exact .skip (.inr hname) (ih fun other hother => hnames other (List.mem_cons_of_mem name hother))
  | @up _ _ _ name _ hname _ ih =>
    exact .up hname (ih fun other hother => hnames other (List.mem_cons_of_mem name hother))
  | @down _ _ _ name _ hname hentry _ ih =>
    exact .past ⟨hnames name List.mem_cons_self, hname.not_dot, hname.not_up⟩ hentry nofun
      (ih fun other hother => hnames other (List.mem_cons_of_mem name hother))
  | @last _ name hname _ hlink =>
    refine .down ⟨hnames name List.mem_cons_self, hname.not_dot, hname.not_up⟩ ?_ .stay
    exact fun target htarget => nomatch hlink target htarget
  | @link _ _ _ name target rest hname hentry _ _ ih =>
    have hsteps : ∀ text ∈ (Trail.ofText target).steps ++ rest, text ≠ "" := by
      intro text htext
      rcases List.mem_append.mp htext with hstep | hrest
      · rcases List.mem_append.mp hstep with hword | hdot
        · rintro rfl
          obtain ⟨word, hword, hempty⟩ := List.mem_map.mp hword
          obtain rfl : word = [] := by simpa using congrArg String.toList hempty
          simp at hword
        · split at hdot
          · rw [List.mem_singleton.mp hdot]
            decide
          · exact nomatch hdot
      · exact hnames text (List.mem_cons_of_mem name hrest)
    refine .link ⟨hnames name List.mem_cons_self, hname.not_dot, hname.not_up⟩ hentry ?_
    refine (ih hsteps).of_strides ?_
    rw [strides_append, strides_append, strides_target]

end ClipRender.Files
