import ClipRender.Files.Tree

set_option autoImplicit false

/-!
The walk through a tree as a relation, with the number of links on the way. Walks to directories go
on from where they have led to.
-/

namespace ClipRender

theorem bind_eq_ok {ε α β : Type} {b : β} {x : Except ε α} {f : α → Except ε β}
    (h : x >>= f = .ok b) : ∃ a, x = .ok a ∧ f a = .ok b := by
  cases x with
  | error e => contradiction
  | ok a => exact ⟨a, rfl, h⟩

theorem no_descent {α : Type} {P : Nat → α → Prop} (h : ∀ n a, P n a → ∃ m < n, ∃ b, P m b) (n : Nat)
    (a : α) : ¬ P n a := by
  induction n using Nat.strongRecOn generalizing a with
  | ind n ih =>
    intro hP
    obtain ⟨m, hm, b, hlater⟩ := h n a hP
    exact ih m hm b hlater

namespace Files

/-- A name that stands for an entry of its own. -/
structure Plain (name : String) : Prop where
  not_dot : name ≠ "."
  not_up : name ≠ ".."
  short : Tree.isTooLong name = false

variable {tree : Tree} {followLast : Bool} {n m links : Nat} {here place other : Location}
  {name : String} {names rest : List String}

/-- The second list has single dots more than the first. -/
inductive Dotted : List String → List String → Prop
  | nil : Dotted [] []
  | keep {name : String} {names more : List String} (h : Dotted names more) :
    Dotted (name :: names) (name :: more)
  | dot {names more : List String} (h : Dotted names more) : Dotted names ("." :: more)

namespace Dotted

variable {more : List String}

theorem refl (names : List String) : Dotted names names := by
  induction names with
  | nil => exact .nil
  | cons name names ih => exact .keep ih

theorem append (h : Dotted names more) (before : List String) :
    Dotted (before ++ names) (before ++ more) := by
  induction before with
  | nil => exact h
  | cons name before ih => exact .keep ih

theorem of_nil (h : Dotted [] more) : ∃ count, more = List.replicate count "." := by
  generalize hnames : ([] : List String) = names at h
  induction h with
  | nil => exact ⟨0, rfl⟩
  | keep => contradiction
  | dot _ ih =>
    obtain ⟨count, rfl⟩ := ih hnames
    exact ⟨count + 1, rfl⟩

theorem of_cons (h : Dotted (name :: names) more) :
    ∃ count later, more = List.replicate count "." ++ name :: later ∧ Dotted names later := by
  generalize hnames : name :: names = all at h
  induction h with
  | nil => contradiction
  | keep h =>
    obtain ⟨rfl, rfl⟩ := List.cons.inj hnames
    exact ⟨0, _, rfl, h⟩
  | dot _ ih =>
    obtain ⟨count, later, rfl, h⟩ := ih hnames
    exact ⟨count + 1, later, rfl, h⟩

end Dotted

/-- The steps lead from one place to another, over a number of links. -/
inductive Walks (tree : Tree) (followLast : Bool) : Nat → Location → List String → Location → Prop
  | stay {here : Location} : Walks tree followLast 0 here [] here
  | dot {n : Nat} {here place : Location} {name : String} {rest : List String} (hname : name = ".")
    (h : Walks tree followLast n here rest place) : Walks tree followLast n here (name :: rest) place
  | up {n : Nat} {here place : Location} {name : String} {rest : List String} (hname : name = "..")
    (h : Walks tree followLast n here.dropLast rest place) :
    Walks tree followLast n here (name :: rest) place
  | down {n : Nat} {here place : Location} {name : String} {rest : List String} (hname : Plain name)
    (hentry : tree.entry? (here ++ [name]) = some .directory)
    (h : Walks tree followLast n (here ++ [name]) rest place) :
    Walks tree followLast n here (name :: rest) place
  | last {here : Location} {name : String} (hname : Plain name)
    (hentry : tree.entry? (here ++ [name]) ≠ some .directory)
    (hlink : ∀ target, tree.entry? (here ++ [name]) = some (.link target) → followLast = false) :
    Walks tree followLast 0 here [name] (here ++ [name])
  | link {n : Nat} {here place : Location} {name target : String} {rest : List String}
    (hname : Plain name) (hentry : tree.entry? (here ++ [name]) = some (.link target))
    (hfollow : rest = [] → followLast = true)
    (h : Walks tree followLast n (Tree.startFrom here (Trail.ofText target).anchor)
      ((Trail.ofText target).steps ++ rest) place) :
    Walks tree followLast (n + 1) here (name :: rest) place

namespace Walks

theorem nil_iff : Walks tree followLast n here [] place ↔ n = 0 ∧ place = here := by
  constructor
  · rintro ⟨⟩
    exact ⟨rfl, rfl⟩
  · rintro ⟨rfl, rfl⟩
    exact .stay

theorem dot_iff : Walks tree followLast n here ("." :: rest) place
    ↔ Walks tree followLast n here rest place := by
  refine ⟨fun h => ?_, .dot rfl⟩
  cases h with
  | dot _ h => exact h
  | up hname => simp at hname
  | down hname => exact absurd rfl hname.not_dot
  | last hname => exact absurd rfl hname.not_dot
  | link hname => exact absurd rfl hname.not_dot

theorem up_iff : Walks tree followLast n here (".." :: rest) place
    ↔ Walks tree followLast n here.dropLast rest place := by
  refine ⟨fun h => ?_, .up rfl⟩
  cases h with
  | dot hname => simp at hname
  | up _ h => exact h
  | down hname => exact absurd rfl hname.not_up
  | last hname => exact absurd rfl hname.not_up
  | link hname => exact absurd rfl hname.not_up

/-- No walk gets past a name that is too long. -/
theorem of_overlong (hdot : name ≠ ".") (hup : name ≠ "..") (hlong : Tree.isTooLong name = true) :
    ¬ Walks tree followLast n here (name :: rest) place := by
  intro h
  cases h with
  | dot hname => exact hdot hname
  | up hname => exact hup hname
  | down hname => simp [hname.short] at hlong
  | last hname => simp [hname.short] at hlong
  | link hname => simp [hname.short] at hlong

theorem down_iff (hname : Plain name) (hentry : tree.entry? (here ++ [name]) = some .directory) :
    Walks tree followLast n here (name :: rest) place
      ↔ Walks tree followLast n (here ++ [name]) rest place := by
  refine ⟨fun h => ?_, .down hname hentry⟩
  cases h with
  | dot hdot => exact absurd hdot hname.not_dot
  | up hup => exact absurd hup hname.not_up
  | down _ _ h => exact h
  | last _ hnone => exact absurd hentry hnone
  | link _ hlink => simp [hentry] at hlink

theorem link_iff {target : String} (hname : Plain name)
    (hentry : tree.entry? (here ++ [name]) = some (.link target))
    (hfollow : rest = [] → followLast = true) :
    Walks tree followLast n here (name :: rest) place ↔ ∃ m, n = m + 1 ∧
      Walks tree followLast m (Tree.startFrom here (Trail.ofText target).anchor)
        ((Trail.ofText target).steps ++ rest) place := by
  constructor
  · intro h
    cases h with
    | dot hdot => exact absurd hdot hname.not_dot
    | up hup => exact absurd hup hname.not_up
    | down _ hdirectory => simp [hentry] at hdirectory
    | last _ _ hlink => simp [hlink target hentry] at hfollow
    | link _ hlink _ h =>
      obtain rfl : target = _ := by simpa [hentry] using hlink
      exact ⟨_, rfl, h⟩
  · rintro ⟨m, rfl, h⟩
    exact .link hname hentry hfollow h

theorem last_iff (hname : Plain name) (hentry : tree.entry? (here ++ [name]) ≠ some .directory)
    (hlink : ∀ target, tree.entry? (here ++ [name]) = some (.link target) →
      rest = [] ∧ followLast = false) :
    Walks tree followLast n here (name :: rest) place
      ↔ rest = [] ∧ n = 0 ∧ place = here ++ [name] := by
  constructor
  · intro h
    cases h with
    | dot hdot => exact absurd hdot hname.not_dot
    | up hup => exact absurd hup hname.not_up
    | down _ hdirectory => exact absurd hdirectory hentry
    | last => exact ⟨rfl, rfl, rfl⟩
    | link _ hlinked hfollow =>
      obtain ⟨rfl, hlast⟩ := hlink _ hlinked
      simp [hfollow rfl] at hlast
  · rintro ⟨rfl, rfl, rfl⟩
    exact .last hname hentry fun target htarget => (hlink target htarget).2

theorem ends_iff (hname : Plain name) (hentry : tree.entry? (here ++ [name]) ≠ some .directory)
    (hlink : ∀ target, tree.entry? (here ++ [name]) = some (.link target) →
      rest = [] ∧ followLast = false) :
    (∃ n < links + 1, Walks tree followLast n here (name :: rest) place)
      ↔ rest = [] ∧ here ++ [name] = place := by
  simp only [last_iff hname hentry hlink]
  constructor
  · rintro ⟨_, _, hrest, _, hplace⟩
    exact ⟨hrest, hplace.symm⟩
  · rintro ⟨hrest, hplace⟩
    exact ⟨0, Nat.succ_pos _, hrest, rfl, hplace.symm⟩

theorem deterministic (h : Walks tree followLast n here names place)
    (k : Walks tree followLast m here names other) : n = m ∧ place = other := by
  induction h generalizing m other with
  | stay =>
    obtain ⟨rfl, rfl⟩ := nil_iff.mp k
    exact ⟨rfl, rfl⟩
  | dot hname _ ih =>
    subst hname
    exact ih (dot_iff.mp k)
  | up hname _ ih =>
    subst hname
    exact ih (up_iff.mp k)
  | down hname hentry _ ih => exact ih ((down_iff hname hentry).mp k)
  | last hname hentry hlink =>
    obtain ⟨_, rfl, rfl⟩ := (last_iff hname hentry fun target htarget =>
      ⟨rfl, hlink target htarget⟩).mp k
    exact ⟨rfl, rfl⟩
  | link hname hentry hfollow _ ih =>
    obtain ⟨m, rfl, later⟩ := (link_iff hname hentry hfollow).mp k
    obtain ⟨rfl, rfl⟩ := ih later
    exact ⟨rfl, rfl⟩

theorem append_iff (h : Walks tree true n here names place)
    (hplace : tree.entry? place = some .directory) (hrest : rest = [] → followLast = true) :
    Walks tree followLast m here (names ++ rest) other
      ↔ ∃ k, m = n + k ∧ Walks tree followLast k place rest other := by
  induction h generalizing m with
  | stay => simp
  | dot hname _ ih =>
    subst hname
    rw [List.cons_append, dot_iff]
    exact ih hplace
  | up hname _ ih =>
    subst hname
    rw [List.cons_append, up_iff]
    exact ih hplace
  | down hname hentry _ ih =>
    rw [List.cons_append, down_iff hname hentry]
    exact ih hplace
  | last hname hentry => exact absurd hplace hentry
  | @link n here place name target names hname hentry hfollow _ ih =>
    rw [List.cons_append, link_iff hname hentry fun hnone => hrest (List.append_eq_nil_iff.mp hnone).2]
    simp only [← List.append_assoc, ih hplace]
    constructor
    · rintro ⟨_, rfl, k, rfl, hlast⟩
      exact ⟨k, by omega, hlast⟩
    · rintro ⟨k, rfl, hlast⟩
      exact ⟨n + k, by omega, k, rfl, hlast⟩

theorem dots_iff {count : Nat} :
    Walks tree followLast n here (List.replicate count "." ++ names) place
      ↔ Walks tree followLast n here names place := by
  induction count with
  | zero => rfl
  | succ count ih =>
    rw [List.replicate_succ, List.cons_append, dot_iff]
    exact ih

theorem dotted (h : Walks tree true n here names place)
    (hplace : tree.entry? place = some .directory) {more : List String} (hmore : Dotted names more) :
    Walks tree true n here more place := by
  induction h generalizing more with
  | stay =>
    obtain ⟨count, rfl⟩ := hmore.of_nil
    rw [← List.append_nil (List.replicate count "."), dots_iff]
    exact .stay
  | dot hname _ ih =>
    obtain ⟨count, later, rfl, hlater⟩ := hmore.of_cons
    exact dots_iff.mpr (.dot hname (ih hplace hlater))
  | up hname _ ih =>
    obtain ⟨count, later, rfl, hlater⟩ := hmore.of_cons
    exact dots_iff.mpr (.up hname (ih hplace hlater))
  | down hname hentry _ ih =>
    obtain ⟨count, later, rfl, hlater⟩ := hmore.of_cons
    exact dots_iff.mpr (.down hname hentry (ih hplace hlater))
  | last _ hentry => exact absurd hplace hentry
  | link hname hentry _ _ ih =>
    obtain ⟨count, later, rfl, hlater⟩ := hmore.of_cons
    exact dots_iff.mpr (.link hname hentry (fun _ => rfl) (ih hplace (hlater.append _)))

theorem own (h : Walks tree true n here names place) (hplace : (tree.entry? place).isSome = true) :
    ∃ m ≤ n, ∃ other, Walks tree false m here names other ∧ (tree.entry? other).isSome = true := by
  induction h with
  | stay => exact ⟨0, Nat.le_refl _, _, .stay, hplace⟩
  | dot hname _ ih =>
    obtain ⟨m, hm, other, hwalk, hother⟩ := ih hplace
    exact ⟨m, hm, other, .dot hname hwalk, hother⟩
  | up hname _ ih =>
    obtain ⟨m, hm, other, hwalk, hother⟩ := ih hplace
    exact ⟨m, hm, other, .up hname hwalk, hother⟩
  | down hname hentry _ ih =>
    obtain ⟨m, hm, other, hwalk, hother⟩ := ih hplace
    exact ⟨m, hm, other, .down hname hentry hwalk, hother⟩
  | last hname hentry => exact ⟨0, Nat.le_refl _, _, .last hname hentry fun _ _ => rfl, hplace⟩
  | @link n here place name target rest hname hentry _ _ ih =>
    cases rest with
    | nil =>
      have standing : (tree.entry? (here ++ [name])).isSome = true := by
        rw [hentry]
        rfl
      exact ⟨0, Nat.zero_le _, _, .last hname (by simp [hentry]) fun _ _ => rfl, standing⟩
    | cons next rest =>
      obtain ⟨m, hm, other, hwalk, hother⟩ := ih hplace
      exact ⟨m + 1, Nat.succ_le_succ hm, other, .link hname hentry (by simp) hwalk, hother⟩

theorem whole (h : Walks tree false n here names place)
    (hlink : ∀ target, tree.entry? place ≠ some (.link target)) :
    Walks tree true n here names place := by
  induction h with
  | stay => exact .stay
  | dot hname _ ih => exact .dot hname (ih hlink)
  | up hname _ ih => exact .up hname (ih hlink)
  | down hname hentry _ ih => exact .down hname hentry (ih hlink)
  | last hname hentry => exact .last hname hentry fun target htarget => absurd htarget (hlink target)
  | link hname hentry _ _ ih => exact .link hname hentry (fun _ => rfl) (ih hlink)

end Walks

namespace Tree

theorem walk_cons (tree : Tree) (followLast : Bool) (links : Nat) (here : Location) (name : String)
    (rest : List String) : tree.walk followLast (links + 1) here (name :: rest)
      = if name = "." then tree.walk followLast (links + 1) here rest
        else if name = ".." then tree.walk followLast (links + 1) here.dropLast rest
        else if isTooLong name then .error .nameTooLong
        else match tree.entry? (here ++ [name]) with
          | none => if rest.isEmpty then .ok (here ++ [name]) else .error .missing
          | some .directory => tree.walk followLast (links + 1) (here ++ [name]) rest
          | some (.file _) => if rest.isEmpty then .ok (here ++ [name]) else .error .notDirectory
          | some (.link target) =>
            if rest.isEmpty && !followLast then .ok (here ++ [name])
            else tree.walk followLast links (startFrom here (Trail.ofText target).anchor)
              ((Trail.ofText target).steps ++ rest) := rfl

/-- A walk succeeds just if it meets fewer links than it may. -/
theorem walk_ok_iff : tree.walk followLast links here names = .ok place
    ↔ ∃ n < links, Walks tree followLast n here names place := by
  -- A link starts the names anew with fewer links to go; all other names only get shorter.
  induction links generalizing here names with
  | zero => simp [walk]
  | succ links ihLinks =>
    induction names generalizing here with
    | nil =>
      simp only [walk, descend, Walks.nil_iff, Except.ok.injEq]
      constructor
      · rintro rfl
        exact ⟨0, Nat.succ_pos _, rfl, rfl⟩
      · rintro ⟨_, _, _, rfl⟩
        rfl
    | cons name rest ih =>
      rw [walk_cons]
      by_cases hdot : name = "."
      · subst hdot
        simp only [if_true, Walks.dot_iff, ih]
      by_cases hup : name = ".."
      · subst hup
        simp only [if_neg hdot, if_true, Walks.up_iff, ih]
      by_cases hlong : isTooLong name = true
      · simp [hdot, hup, hlong, Walks.of_overlong hdot hup hlong]
      · have hname : Plain name := ⟨hdot, hup, by simpa using hlong⟩
        rw [if_neg hdot, if_neg hup, if_neg hlong]
        split
        · next hentry =>
          rw [Walks.ends_iff hname (by simp [hentry]) (by simp [hentry])]
          cases rest <;> simp
        · next hentry => simp only [Walks.down_iff hname hentry, ih]
        · next hentry =>
          rw [Walks.ends_iff hname (by simp [hentry]) (by simp [hentry])]
          cases rest <;> simp
        · next target hentry =>
          split
          · next hstays =>
            obtain ⟨rfl, rfl⟩ : rest = [] ∧ followLast = false := by simpa using hstays
            rw [Walks.ends_iff hname (by simp [hentry]) (by simp)]
            simp
          · next hgoes =>
            have hfollow : rest = [] → followLast = true := by simpa using hgoes
            simp only [Walks.link_iff hname hentry hfollow, ihLinks]
            constructor
            · rintro ⟨n, hn, h⟩
              exact ⟨n + 1, Nat.succ_lt_succ hn, n, rfl, h⟩
            · rintro ⟨_, hn, n, rfl, h⟩
              exact ⟨n, Nat.lt_of_succ_lt_succ hn, h⟩

theorem walk_past (h : Walks tree true n here names place)
    (hplace : tree.entry? place = some .directory) (hrest : rest ≠ []) :
    tree.walk followLast (n + links + 1) here (names ++ rest)
      = tree.walk followLast (links + 1) place rest := by
  induction h with
  | stay => rw [Nat.zero_add, List.nil_append]
  | dot hdot _ ih =>
    rw [List.cons_append, walk_cons, if_pos hdot]
    exact ih hplace
  | up hup _ ih =>
    rw [List.cons_append, walk_cons, if_neg (by rw [hup]; decide), if_pos hup]
    exact ih hplace
  | down hname hentry _ ih =>
    rw [List.cons_append, walk_cons, if_neg hname.not_dot, if_neg hname.not_up, hname.short, hentry]
    exact ih hplace
  | last _ hentry => exact absurd hplace hentry
  | @link n _ _ _ target others hname hentry _ _ ih =>
    have more : (others ++ rest).isEmpty = false := by simp [hrest]
    rw [List.cons_append, walk_cons, if_neg hname.not_dot, if_neg hname.not_up, hname.short, hentry]
    simp only [more, Bool.false_and, Bool.false_eq_true, if_false]
    rw [← List.append_assoc, Nat.add_right_comm n 1 links]
    exact ih hplace

theorem walkTrail_ok_iff {trail : Trail} : tree.walkTrail followLast trail = .ok place
    ↔ trail.size ≠ 0 ∧ trail.size ≤ trailLimit ∧ ∃ n ≤ linkLimit, Walks tree followLast n
      (startFrom tree.workingDirectory trail.anchor) trail.steps place := by
  rw [walkTrail]
  split
  · next hnone => simp [hnone]
  · next hsome =>
    split
    · next hlong => simp [hsome, Nat.not_le_of_lt hlong]
    · next hshort =>
      simp only [walk_ok_iff, Nat.lt_succ_iff]
      simp [hsome, Nat.not_lt.mp hshort]

theorem status_ok_iff {trail : Trail} {entry : Entry} : tree.status trail = .ok entry
    ↔ ∃ place, tree.place trail = .ok place ∧ tree.entry? place = some entry := by
  rw [status]
  cases hplace : tree.place trail with
  | error fault => simp [bind, Except.bind]
  | ok place =>
    cases hentry : tree.entry? place <;> simp [bind, Except.bind, hentry]

theorem file?_eq_some_iff {trail : Trail} {file : File} :
    tree.file? trail = .ok (some file) ↔ tree.status trail = .ok (.file file) := by
  rw [file?]
  split <;> simp_all

theorem leadsSomewhere_iff {trail : Trail} :
    tree.leadsSomewhere trail = true ↔ ∃ entry, tree.status trail = .ok entry := by
  rw [leadsSomewhere]
  cases tree.status trail <;> simp [Except.isOk, Except.toBool]

/-- What stands at a path itself, links not followed. -/
def itself? (tree : Tree) (trail : Trail) : Option Entry :=
  match tree.ownPlace trail with
  | .ok place => tree.entry? place
  | .error _ => none

theorem exists_ownPlace {trail : Trail} {entry : Entry} (h : tree.status trail = .ok entry) :
    ∃ own, tree.ownPlace trail = .ok own ∧ (tree.entry? own).isSome = true := by
  obtain ⟨place, hplace, hentry⟩ := status_ok_iff.mp h
  obtain ⟨hsize, hlimit, n, hn, hwalk⟩ := walkTrail_ok_iff.mp hplace
  obtain ⟨m, hm, own, hown, hsome⟩ := hwalk.own (by rw [hentry]; rfl)
  exact ⟨own, walkTrail_ok_iff.mpr ⟨hsize, hlimit, m, Nat.le_trans hm hn, hown⟩, hsome⟩

theorem itself?_isSome {trail : Trail} {entry : Entry} (h : tree.status trail = .ok entry) :
    (tree.itself? trail).isSome = true := by
  obtain ⟨own, hown, hsome⟩ := exists_ownPlace h
  rw [itself?, hown]
  exact hsome

theorem file?_of_itself? {trail : Trail} {file : File} (h : tree.itself? trail = some (.file file)) :
    tree.file? trail = .ok (some file) := by
  rw [itself?] at h
  split at h
  · next own hown =>
    obtain ⟨hsize, hlimit, n, hn, hwalk⟩ := walkTrail_ok_iff.mp hown
    rw [file?_eq_some_iff, status_ok_iff]
    exact ⟨own, walkTrail_ok_iff.mpr ⟨hsize, hlimit, n, hn, hwalk.whole (by simp [h])⟩, h⟩
  · contradiction

theorem file?_ne_some {trail : Trail} (h : tree.itself? trail = none) (file : File) :
    tree.file? trail ≠ .ok (some file) := by
  intro hfile
  have := itself?_isSome (file?_eq_some_iff.mp hfile)
  simp [h] at this

end Tree

end Files

end ClipRender
