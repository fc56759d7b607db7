import ClipRender.Files.Canonical
import ClipRender.Proofs.Files.Walking
import Mathlib.Data.List.Induction

set_option autoImplicit false

/-!
What a canonical path is. Where the way along a path comes to an end it is the place that the way
leads to, and no link is on it. Only a circle of links has no end; then the rest of the way is not
looked at.
-/

namespace ClipRender.Files

/-- A text between slashes that is no step to the same or the upper directory. -/
structure Named (name : String) : Prop where
  not_empty : name ≠ ""
  not_dot : name ≠ "."
  not_up : name ≠ ".."

theorem named_iff {name : String} : Named name ↔ name ≠ "" ∧ name ≠ "." ∧ name ≠ ".." :=
  ⟨fun h => ⟨h.not_empty, h.not_dot, h.not_up⟩, fun ⟨hempty, hdot, hup⟩ => ⟨hempty, hdot, hup⟩⟩

/-- What is left once a walk has looked for steps that lead nowhere and for steps up. -/
theorem Named.of_not {name : String} (hskip : ¬ (name = "" ∨ name = ".")) (hup : name ≠ "..") :
    Named name :=
  ⟨(not_or.mp hskip).1, (not_or.mp hskip).2, hup⟩

instance (name : String) : Decidable (Named name) := decidable_of_iff _ named_iff.symm

def Pending.texts (ahead : List Pending) : List String :=
  ahead.filterMap fun
    | .piece text => some text
    | .linkEnd _ => none

/-- The steps lead to a place if each link is replaced by its target, over a number of links.
Whatever else stands on the way, or nothing, can be entered. -/
inductive Resolves (tree : Tree) : Nat → Location → List String → Location → Prop
  | stay {here : Location} : Resolves tree 0 here [] here
  | skip {n : Nat} {here place : Location} {name : String} {rest : List String}
    (hname : name = "" ∨ name = ".") (h : Resolves tree n here rest place) :
    Resolves tree n here (name :: rest) place
  | up {n : Nat} {here place : Location} {name : String} {rest : List String} (hname : name = "..")
    (h : Resolves tree n here.dropLast rest place) : Resolves tree n here (name :: rest) place
  | down {n : Nat} {here place : Location} {name : String} {rest : List String} (hname : Named name)
    (hentry : ∀ target, tree.entry? (here ++ [name]) ≠ some (.link target))
    (h : Resolves tree n (here ++ [name]) rest place) : Resolves tree n here (name :: rest) place
  | link {n : Nat} {here place : Location} {name target : String} {rest : List String}
    (hname : Named name) (hentry : tree.entry? (here ++ [name]) = some (.link target))
    (h : Resolves tree n (Tree.startFrom here (anchorOf target.toList))
      (Pending.texts (Pending.ofTarget target) ++ rest) place) :
    Resolves tree (n + 1) here (name :: rest) place

/-- No link is on the way down to a place. -/
def Real (tree : Tree) (place : Location) : Prop :=
  ∀ before name after, place = before ++ name :: after →
    Named name ∧ ∀ target, tree.entry? (before ++ [name]) ≠ some (.link target)

/-- From a link on the way goes on with other steps, and with fewer links to come. -/
def Passes (tree : Tree) (link here : Location) (steps : List String) : Prop :=
  ∀ dir name, link = dir ++ [name] → ∀ more n place, Resolves tree n dir (name :: more) place →
    ∃ m < n, Resolves tree m here (steps ++ more) place

/-- What is known of the links met so far, and of those whose targets are still being walked. -/
structure Chase (tree : Tree) (here : Location) (followed : Followed) (ahead : List Pending) :
    Prop where
  ends : ∀ before link after, ahead = before ++ .linkEnd link :: after →
    Passes tree link here (Pending.texts before)
  known : ∀ link spot, followed.lookup link = some (some spot) → Passes tree link spot []
  pending : ∀ link, followed.lookup link = some none → .linkEnd link ∈ ahead

variable {tree : Tree} {n m fuel : Nat} {here place next spot : Location} {name text target : String}
  {names rest : List String} {ahead : List Pending} {followed : Followed}

namespace Resolves

theorem nil_iff : Resolves tree n here [] place ↔ n = 0 ∧ place = here := by
  constructor
  · rintro ⟨⟩
    exact ⟨rfl, rfl⟩
  · rintro ⟨rfl, rfl⟩
    exact .stay

theorem past {entry : Entry} (hname : Named name)
    (hentry : tree.entry? (here ++ [name]) = some entry) (hother : ∀ target, entry ≠ .link target)
    (h : Resolves tree n (here ++ [name]) rest place) : Resolves tree n here (name :: rest) place := by
  refine .down hname (fun target hlink => ?_) h
  exact hother target (Option.some.inj (hentry.symm.trans hlink))

theorem of_skip (hname : name = "" ∨ name = ".") (h : Resolves tree n here (name :: rest) place) :
    Resolves tree n here rest place := by
  cases h with
  | skip _ h => exact h
  | up hup => simp [hup] at hname
  | down hnamed => exact absurd hname (not_or.mpr ⟨hnamed.not_empty, hnamed.not_dot⟩)
  | link hnamed => exact absurd hname (not_or.mpr ⟨hnamed.not_empty, hnamed.not_dot⟩)

theorem of_up (h : Resolves tree n here (".." :: rest) place) :
    Resolves tree n here.dropLast rest place := by
  cases h with
  | skip hskip => simp at hskip
  | up _ h => exact h
  | down hnamed => exact absurd rfl hnamed.not_up
  | link hnamed => exact absurd rfl hnamed.not_up

theorem of_down (hname : Named name)
    (hentry : ∀ target, tree.entry? (here ++ [name]) ≠ some (.link target))
    (h : Resolves tree n here (name :: rest) place) : Resolves tree n (here ++ [name]) rest place := by
  cases h with
  | skip hskip => exact absurd hskip (not_or.mpr ⟨hname.not_empty, hname.not_dot⟩)
  | up hup => exact absurd hup hname.not_up
  | down _ _ h => exact h
  | link _ hlink => exact absurd hlink (hentry _)

theorem of_link (hname : Named name) (hentry : tree.entry? (here ++ [name]) = some (.link target))
    (h : Resolves tree n here (name :: rest) place) : ∃ m, n = m + 1 ∧
      Resolves tree m (Tree.startFrom here (anchorOf target.toList))
        (Pending.texts (Pending.ofTarget target) ++ rest) place := by
  cases h with
  | skip hskip => exact absurd hskip (not_or.mpr ⟨hname.not_empty, hname.not_dot⟩)
  | up hup => exact absurd hup hname.not_up
  | down _ hnone => exact absurd hentry (hnone target)
  | link _ hlink _ =>
    obtain rfl : target = _ := by simpa [hentry] using hlink
    exact ⟨_, rfl, ‹_›⟩

end Resolves

namespace Real

theorem root (tree : Tree) : Real tree [] := by
  intro before name after hsplit
  simp at hsplit

theorem up (h : Real tree here) : Real tree here.dropLast := by
  intro before name after hsplit
  cases here using List.reverseRecOn with
  | nil => simp at hsplit
  | append_singleton above last =>
    rw [List.dropLast_concat] at hsplit
    refine h before name (after ++ [last]) ?_
    rw [hsplit]
    simp

theorem down (h : Real tree here) (hname : Named name)
    (hentry : ∀ target, tree.entry? (here ++ [name]) ≠ some (.link target)) :
    Real tree (here ++ [name]) := by
  intro before other after hsplit
  cases after using List.reverseRecOn with
  | nil =>
    obtain ⟨rfl, hsame⟩ := List.append_inj' hsplit rfl
    obtain rfl := List.head_eq_of_cons_eq hsame
    exact ⟨hname, hentry⟩
  | append_singleton after last =>
    rw [← List.cons_append, ← List.append_assoc] at hsplit
    exact h before other after (List.append_inj' hsplit rfl).1

theorem walks {followLast : Bool} (h : Walks tree followLast n here names place)
    (hreal : Real tree (here ++ names)) : place = here ++ names := by
  induction h with
  | stay => exact (List.append_nil _).symm
  | dot hdot => exact absurd hdot (hreal _ _ _ rfl).1.not_dot
  | up hup => exact absurd hup (hreal _ _ _ rfl).1.not_up
  | down _ _ _ ih =>
    rw [List.append_cons] at hreal ⊢
    exact ih hreal
  | last => rfl
  | link _ hlink => exact absurd hlink ((hreal _ _ _ rfl).2 _)

theorem file {file : File} (hreal : Real tree place)
    (h : tree.file? (Path.absolute place) = .ok (some file)) :
    tree.entry? place = some (.file file) := by
  obtain ⟨end_, hplace, hentry⟩ := Tree.status_ok_iff.mp (Tree.file?_eq_some_iff.mp h)
  obtain ⟨_, _, n, _, hwalk⟩ := Tree.walkTrail_ok_iff.mp hplace
  have hsteps : (Path.absolute place).trail.steps = place := List.append_nil _
  rw [hsteps] at hwalk
  obtain rfl := walks hwalk hreal
  exact hentry

end Real

theorem Resolves.real (h : Resolves tree n here names place) (hhere : Real tree here) :
    Real tree place := by
  induction h with
  | stay => exact hhere
  | skip _ _ ih => exact ih hhere
  | up _ _ ih => exact ih hhere.up
  | down hname hentry _ ih => exact ih (hhere.down hname hentry)
  | @link _ here _ _ target _ _ _ _ ih =>
    refine ih ?_
    cases anchorOf target.toList with
    | relative => exact hhere
    | _ => exact .root tree

namespace Pending

theorem texts_append (first second : List Pending) :
    texts (first ++ second) = texts first ++ texts second := List.filterMap_append

theorem texts_pieces (names : List String) : texts (names.map .piece) = names := by
  induction names with
  | nil => rfl
  | cons name names ih => exact congrArg (name :: ·) ih

theorem ofTarget_eq (target : String) : ofTarget target = (texts (ofTarget target)).map .piece := by
  have pieces : ∃ names : List String, ofTarget target = names.map .piece := by
    rw [ofTarget]
    split
    · exact ⟨(pieces target.toList).map String.ofList, by rw [List.map_map]; rfl⟩
    · exact ⟨((pieces target.toList).map String.ofList).tail, by
        rw [List.map_tail, List.map_map]; rfl⟩
  obtain ⟨names, hnames⟩ := pieces
  rw [hnames, texts_pieces]

/-- The end of a link after some steps is the end that comes next, or a later one. -/
theorem split_end {link other : Location} {before after : List Pending}
    (h : names.map .piece ++ .linkEnd link :: ahead = before ++ .linkEnd other :: after) :
    (other = link ∧ before = names.map .piece) ∨
      ∃ later, before = names.map .piece ++ .linkEnd link :: later ∧
        ahead = later ++ .linkEnd other :: after := by
  induction names generalizing before with
  | nil =>
    cases before with
    | nil =>
      obtain ⟨hsame, _⟩ := List.cons.inj h
      exact .inl ⟨(Pending.linkEnd.inj hsame).symm, rfl⟩
    | cons first before =>
      obtain ⟨rfl, hahead⟩ := List.cons.inj h
      exact .inr ⟨before, rfl, hahead⟩
  | cons name names ih =>
    cases before with
    | nil => exact nomatch (List.cons.inj h).1
    | cons first before =>
      obtain ⟨rfl, hrest⟩ := List.cons.inj h
      rcases ih hrest with ⟨hsame, rfl⟩ | ⟨later, rfl, hahead⟩
      · exact .inl ⟨hsame, rfl⟩
      · exact .inr ⟨later, rfl, hahead⟩

end Pending

namespace Chase

open Pending

theorem start (tree : Tree) (here : Location) (names : List String) :
    Chase tree here [] (names.map .piece) where
  ends := by
    intro before link after hsplit
    have hmem : Pending.linkEnd link ∈ names.map .piece := by
      rw [hsplit]
      exact List.mem_append_right before List.mem_cons_self
    simp at hmem
  known := by simp
  pending := by simp

theorem step (h : Chase tree here followed (.piece text :: ahead))
    (hstep : ∀ more n place, Resolves tree n here (text :: more) place →
      ∃ m ≤ n, Resolves tree m next more place) : Chase tree next followed ahead where
  ends := by
    intro before link after hsplit dir name hlink more n place hwalk
    obtain ⟨m, hm, hlater⟩ := h.ends (.piece text :: before) link after
      (by rw [hsplit]; rfl) dir name hlink more n place hwalk
    obtain ⟨k, hk, hlast⟩ := hstep _ m place hlater
    exact ⟨k, Nat.lt_of_le_of_lt hk hm, hlast⟩
  known := h.known
  pending link hlookup := (List.mem_cons.mp (h.pending link hlookup)).resolve_left (by simp)

theorem enter (h : Chase tree here followed (.piece text :: ahead)) (hname : Named text)
    (hentry : tree.entry? (here ++ [text]) = some (.link target)) :
    Chase tree (Tree.startFrom here (anchorOf target.toList)) ((here ++ [text], none) :: followed)
      (ofTarget target ++ .linkEnd (here ++ [text]) :: ahead) where
  ends := by
    intro before link after hsplit dir name hlink more n place hwalk
    have entered : ∀ {m more}, Resolves tree m here (text :: more) place → ∃ k < m,
        Resolves tree k (Tree.startFrom here (anchorOf target.toList))
          (texts (ofTarget target) ++ more) place := by
      intro m more hwalk
      obtain ⟨k, rfl, hlater⟩ := hwalk.of_link hname hentry
      exact ⟨k, Nat.lt_succ_self k, hlater⟩
    rw [ofTarget_eq] at hsplit
    rcases split_end hsplit with ⟨rfl, rfl⟩ | ⟨later, rfl, hahead⟩
    · obtain ⟨rfl, hsame⟩ := List.append_inj' hlink rfl
      obtain rfl := List.head_eq_of_cons_eq hsame
      obtain ⟨k, hk, hlast⟩ := entered hwalk
      exact ⟨k, hk, by rwa [← ofTarget_eq]⟩
    · -- This link stands in the target of one that was entered before.
      obtain ⟨m, hm, hlater⟩ := h.ends (.piece text :: later) link after
        (by rw [hahead]; rfl) dir name hlink more n place hwalk
      obtain ⟨k, hk, hlast⟩ := entered hlater
      refine ⟨k, Nat.lt_trans hk hm, ?_⟩
      rw [← ofTarget_eq, texts_append, List.append_assoc]
      exact hlast
  known := by
    intro link spot hlookup
    rw [List.lookup_cons] at hlookup
    split at hlookup
    · simp at hlookup
    · exact h.known link spot hlookup
  pending := by
    intro link hlookup
    rw [List.lookup_cons] at hlookup
    split at hlookup
    · next hsame =>
      rw [beq_iff_eq.mp hsame]
      exact List.mem_append_right _ List.mem_cons_self
    · have := (List.mem_cons.mp (h.pending link hlookup)).resolve_left (by simp)
      exact List.mem_append_right _ (List.mem_cons_of_mem _ this)

theorem leave {link : Location} (h : Chase tree here followed (.linkEnd link :: ahead)) :
    Chase tree here ((link, some here) :: followed) ahead where
  ends before other after hsplit := h.ends (.linkEnd link :: before) other after (by rw [hsplit]; rfl)
  known := by
    intro other spot hlookup
    rw [List.lookup_cons] at hlookup
    split at hlookup
    · next hsame =>
      rw [beq_iff_eq.mp hsame, ← Option.some.inj (Option.some.inj hlookup)]
      exact h.ends [] link ahead rfl
    · exact h.known other spot hlookup
  pending := by
    intro other hlookup
    rw [List.lookup_cons] at hlookup
    split at hlookup
    · simp at hlookup
    · next hother =>
      refine (List.mem_cons.mp (h.pending other hlookup)).resolve_left fun hsame => ?_
      rw [Pending.linkEnd.inj hsame] at hother
      simp at hother

/-- A link that leads back to itself has no end. -/
theorem endless (h : Chase tree here followed (.piece text :: ahead))
    (hlookup : followed.lookup (here ++ [text]) = some none) :
    ¬ Resolves tree n here (text :: rest) place := by
  obtain ⟨before, after, hsplit⟩ := List.append_of_mem (h.pending _ hlookup)
  cases before with
  | nil => simp at hsplit
  | cons first before =>
    obtain ⟨rfl, _⟩ := List.cons.inj hsplit
    have again := h.ends _ _ after hsplit here text rfl
    exact no_descent (P := fun n more => Resolves tree n here (text :: more) place)
      (fun n more hwalk => by
        obtain ⟨m, hm, hlater⟩ := again more n place hwalk
        exact ⟨m, hm, _, hlater⟩) n rest

end Chase

def Entry.detour : Entry → Nat
  | .link target => (Pending.ofTarget target).length + 1
  | _ => 0

/-- How many steps the links not met so far can still add. -/
def Followed.toCome (followed : Followed) : List (Location × Entry) → Nat
  | [] => 0
  | (place, entry) :: rest =>
    (if (followed.lookup place).isSome then 0 else entry.detour) + toCome followed rest

namespace Followed

theorem toCome_cons (followed : Followed) (link : Location) (spot? : Option Location)
    (entries : List (Location × Entry)) :
    toCome ((link, spot?) :: followed) entries ≤ toCome followed entries := by
  induction entries with
  | nil => exact Nat.le_refl 0
  | cons first entries ih =>
    refine Nat.add_le_add ?_ ih
    rw [List.lookup_cons]
    split
    · exact Nat.zero_le _
    · exact Nat.le_refl _

/-- A link that is met for the first time adds its steps no more. -/
theorem toCome_enter {link : Location} {entry : Entry} {entries : List (Location × Entry)}
    (hentry : entries.lookup link = some entry) (hnew : followed.lookup link = none)
    (spot? : Option Location) :
    toCome ((link, spot?) :: followed) entries + entry.detour ≤ toCome followed entries := by
  induction entries with
  | nil => simp at hentry
  | cons first entries ih =>
    obtain ⟨place, other⟩ := first
    have others := toCome_cons followed link spot? entries
    rw [toCome, toCome]
    rw [List.lookup_cons] at hentry
    split at hentry
    · next hsame =>
      obtain rfl := beq_iff_eq.mp hsame
      obtain rfl := Option.some.inj hentry
      simp only [List.lookup_cons, hnew, beq_self_eq_true, Option.isSome_some, Option.isSome_none,
        if_true, Bool.false_eq_true, if_false] at others ⊢
      omega
    · next hother =>
      have here := toCome_cons followed link spot? [(place, other)]
      simp only [toCome] at here
      have := ih hentry
      omega

end Followed

theorem Tree.followFuel_eq (tree : Tree) (path : Path) :
    tree.followFuel path = path.names.length + 1 + Followed.toCome [] tree.entries := by
  rw [followFuel]
  generalize path.names.length + 1 = steps
  induction tree.entries generalizing steps with
  | nil => rfl
  | cons first entries ih =>
    obtain ⟨place, entry⟩ := first
    rw [List.foldl_cons, ih]
    cases entry <;> simp [Followed.toCome, Entry.detour, Nat.add_assoc]

namespace Tree

/-- Where the way comes to an end, the place that is found is that end. -/
theorem follow_eq {path : Path} (hchase : Chase tree here followed ahead)
    (hfuel : ahead.length + followed.toCome tree.entries ≤ fuel)
    (hwalk : ∃ n, Resolves tree n here (Pending.texts ahead) place)
    (h : tree.follow fuel here followed ahead = .ok path) : path = .absolute place := by
  fun_induction follow tree fuel here followed ahead with
  | case1 here followed ahead =>
    obtain rfl : ahead = [] := List.eq_nil_of_length_eq_zero (by omega)
    obtain ⟨n, hwalk⟩ := hwalk
    obtain rfl := (Resolves.nil_iff.mp hwalk).2
    exact (Except.ok.inj h).symm
  | case2 _ here =>
    obtain ⟨n, hwalk⟩ := hwalk
    obtain rfl := (Resolves.nil_iff.mp hwalk).2
    exact (Except.ok.inj h).symm
  | case3 here followed fuel link rest ih =>
    have fewer := Followed.toCome_cons followed link (some here) tree.entries
    exact ih hchase.leave (by rw [List.length_cons] at hfuel; omega) hwalk h
  | case4 here followed fuel text rest hskip ih =>
    refine ih (hchase.step fun _ n _ hway => ⟨n, Nat.le_refl n, hway.of_skip hskip⟩)
      (by rw [List.length_cons] at hfuel; omega) ?_ h
    exact hwalk.imp fun n hwalk => Resolves.of_skip hskip hwalk
  | case5 here followed fuel rest _ ih =>
    refine ih (hchase.step fun _ n _ hway => ⟨n, Nat.le_refl n, hway.of_up⟩)
      (by rw [List.length_cons] at hfuel; omega) ?_ h
    exact hwalk.imp fun n hwalk => Resolves.of_up hwalk
  | case6 => exact nomatch h
  | case7 here followed fuel text rest _ _ next _ target _ spot hknown ih =>
    have onward := hchase.known next spot hknown here text rfl
    refine ih (hchase.step fun more n place hway => ?_)
      (by rw [List.length_cons] at hfuel; omega) ?_ h
    · obtain ⟨m, hm, hlater⟩ := onward more n place hway
      exact ⟨m, Nat.le_of_lt hm, hlater⟩
    · obtain ⟨n, hwalk⟩ := hwalk
      obtain ⟨m, _, hlater⟩ := onward _ n place hwalk
      exact ⟨m, hlater⟩
  | case8 here followed fuel text rest _ _ next _ target _ hopen =>
    obtain ⟨n, hwalk⟩ := hwalk
    exact absurd hwalk (hchase.endless hopen)
  | case9 here followed fuel text rest hnamed hdown next _ target hentry hnew ih =>
    have hname := Named.of_not hnamed hdown
    have hlookup : tree.entries.lookup next = some (.link target) := by
      simpa [ entry?, next] using hentry
    have fewer := Followed.toCome_enter hlookup hnew none
    obtain ⟨n, hwalk⟩ := hwalk
    obtain ⟨m, rfl, hlater⟩ := Resolves.of_link hname hentry hwalk
    refine ih (hchase.enter hname hentry) ?_ ⟨m, ?_⟩ h
    · simp only [Entry.detour, List.length_append, List.length_cons] at fewer hfuel ⊢
      omega
    · rw [Pending.texts_append]
      exact hlater
  | case10 here followed fuel text rest hnamed hdown next _ hentry ih =>
    have hname := Named.of_not hnamed hdown
    refine ih (hchase.step fun _ n _ hway => ⟨n, Nat.le_refl n, hway.of_down hname hentry⟩)
      (by rw [List.length_cons] at hfuel; omega) ?_ h
    exact hwalk.imp fun n hwalk => Resolves.of_down hname hentry hwalk

theorem follow_down (hname : Named name)
    (hentry : ∀ target, tree.entry? (here ++ [name]) ≠ some (.link target))
    (hplain : (here ++ [name]).any hasNull = false) :
    tree.follow (fuel + 1) here followed (.piece name :: ahead) =
      tree.follow fuel (here ++ [name]) followed ahead := by
  rw [follow]
  dsimp only
  rw [if_neg (not_or.mpr ⟨hname.not_empty, hname.not_dot⟩), if_neg hname.not_up, hplain,
    if_neg Bool.false_ne_true]
  split
  · next target hlink => exact absurd hlink (hentry target)
  · rfl

theorem follow_real (hreal : Real tree (here ++ names))
    (hplain : (here ++ names).any hasNull = false) (hfuel : names.length ≤ fuel) :
    tree.follow fuel here followed (names.map .piece) = .ok (.absolute (here ++ names)) := by
  induction names generalizing here fuel with
  | nil => cases fuel <;> simp [follow]
  | cons name names ih =>
    cases fuel with
    | zero => exact nomatch hfuel
    | succ fuel =>
      obtain ⟨hname, hentry⟩ := hreal here name names rfl
      rw [List.append_cons] at hreal hplain ⊢
      rw [List.map_cons, follow_down hname hentry
        (Bool.or_eq_false_iff.mp (List.any_append ▸ hplain)).1]
      exact ih hreal hplain (Nat.le_of_succ_le_succ hfuel)

theorem restart?_anchor {anchor : Anchor} (h : restart? ahead = some anchor) :
    anchor ≠ .relative := by
  rintro rfl
  unfold restart? at h
  split at h
  · exact nomatch Option.some.inj h
  · exact nomatch Option.some.inj h
  · exact nomatch Option.some.inj h
  · exact nomatch h

theorem join_anchor {path : Path} (h : path.anchor ≠ .relative) (ahead : List Pending) :
    (join path ahead).anchor ≠ .relative := by
  induction ahead generalizing path with
  | nil => exact h
  | cons first rest ih =>
    cases first with
    | linkEnd link =>
      rw [join]
      split
      · next anchor hanchor => exact ih (restart?_anchor hanchor)
      · exact ih h
    | piece text =>
      rw [join]
      split_ifs
      · exact ih h
      · exact ih h
      · exact ih h

theorem joinRest_anchor (link : Location) (ahead : List Pending) :
    (joinRest link ahead).anchor ≠ .relative := by
  rw [joinRest]
  split
  · next anchor hanchor => exact join_anchor (restart?_anchor hanchor) ahead
  · exact join_anchor Anchor.noConfusion ahead

theorem follow_anchor {path : Path} (h : tree.follow fuel here followed ahead = .ok path) :
    path.anchor ≠ .relative := by
  fun_induction follow tree fuel here followed ahead with
  | case1 | case2 => exact Except.ok.inj h ▸ Anchor.noConfusion
  | case6 => exact nomatch h
  | case8 => exact Except.ok.inj h ▸ joinRest_anchor _ _
  | case3 _ _ _ _ _ ih | case4 _ _ _ _ _ _ ih | case5 _ _ _ _ _ ih | case7 _ _ _ _ _ _ _ _ _ _ _ _ _ ih
  | case9 _ _ _ _ _ _ _ _ _ _ _ _ ih | case10 _ _ _ _ _ _ _ _ _ _ ih => exact ih h

theorem canonical_ok_iff {path found : Path} : tree.canonical path = .ok found ↔
    tree.follow (tree.followFuel path) (startFrom tree.workingDirectory path.anchor) []
        (path.names.map .piece) = .ok found ∧
      found.names.any hasNull = false ∧ tree.status found ≠ .error .tooManyLinks := by
  rw [canonical]
  cases tree.follow (tree.followFuel path) (startFrom tree.workingDirectory path.anchor) []
      (path.names.map .piece) with
  | error failure => simp [bind, Except.bind]
  | ok other =>
    simp only [bind, Except.bind, Except.ok.injEq]
    split
    · next hnull =>
      refine iff_of_false nofun ?_
      rintro ⟨rfl, hplain, _⟩
      exact Bool.false_ne_true (hplain.symm.trans hnull)
    next hplain =>
    split
    · next hloop =>
      refine iff_of_false nofun ?_
      rintro ⟨rfl, _, hends⟩
      exact hends hloop
    · next hends =>
      refine ⟨fun h => ?_, fun h => congrArg _ h.1⟩
      obtain rfl := Except.ok.inj h
      exact ⟨rfl, Bool.not_eq_true _ ▸ hplain, hends⟩

theorem canonical_anchor {path found : Path} (h : tree.canonical path = .ok found) :
    found.anchor ≠ .relative := follow_anchor (canonical_ok_iff.mp h).1

/-- A way from a root that comes to an end leads to the canonical path. It is its own. -/
theorem canonical_eq {path found : Path} (h : tree.canonical path = .ok found)
    (hanchor : path.anchor ≠ .relative) (hwalk : Resolves tree n [] path.names place) :
    found = .absolute place ∧ Real tree place ∧ tree.canonical found = .ok found := by
  obtain ⟨hfollow, hplain, hends⟩ := canonical_ok_iff.mp h
  have hstart : startFrom tree.workingDirectory path.anchor = [] := by
    cases hpath : path.anchor with
    | relative => exact absurd hpath hanchor
    | root | doubleRoot => rfl
  rw [hstart] at hfollow
  have hfuel : (path.names.map Pending.piece).length + Followed.toCome [] tree.entries
      ≤ tree.followFuel path := by
    rw [followFuel_eq, List.length_map]
    omega
  have hfound := follow_eq (.start tree [] path.names) hfuel
    ⟨n, (Pending.texts_pieces path.names).symm ▸ hwalk⟩ hfollow
  have hreal := hwalk.real (.root tree)
  subst hfound
  refine ⟨rfl, hreal, canonical_ok_iff.mpr ⟨?_, hplain, hends⟩⟩
  refine @follow_real tree _ [] place [] hreal hplain ?_
  rw [followFuel_eq]
  exact Nat.le_add_right_of_le (Nat.le_succ _)

end Tree

end ClipRender.Files
