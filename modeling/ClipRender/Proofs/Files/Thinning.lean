import ClipRender.Proofs.Files.Housing

set_option autoImplicit false

/-!
Files that are taken away. Directories and links alone tell where a path leads to, so all paths lead
to where they led before.
-/

namespace ClipRender.Files

/-- The trees have the same directories and links. -/
structure Tree.SameWays (first second : Tree) : Prop where
  workingDirectory : second.workingDirectory = first.workingDirectory
  entries : ∀ place entry, (∀ file, entry ≠ .file file) →
    (second.entry? place = some entry ↔ first.entry? place = some entry)

variable {first second third tree : Tree} {followLast : Bool} {n : Nat} {here place home : Location}
  {names : List String} {trail : Trail} {file : File}

namespace Tree

namespace SameWays

theorem refl (tree : Tree) : tree.SameWays tree := ⟨rfl, fun _ _ _ => Iff.rfl⟩

theorem symm (h : first.SameWays second) : second.SameWays first :=
  ⟨h.workingDirectory.symm, fun place entry hentry => (h.entries place entry hentry).symm⟩

theorem trans (h : first.SameWays second) (k : second.SameWays third) : first.SameWays third :=
  ⟨k.workingDirectory.trans h.workingDirectory,
    fun place entry hentry => (k.entries place entry hentry).trans (h.entries place entry hentry)⟩

theorem directory_iff (h : first.SameWays second) (place : Location) :
    second.entry? place = some .directory ↔ first.entry? place = some .directory :=
  h.entries place .directory nofun

end SameWays

end Tree

theorem Walks.sameWays (hsame : first.SameWays second)
    (h : Walks first followLast n here names place) : Walks second followLast n here names place := by
  induction h with
  | stay => exact .stay
  | dot hdot _ ih => exact .dot hdot ih
  | up hup _ ih => exact .up hup ih
  | down hname hentry _ ih => exact .down hname ((hsame.directory_iff _).mpr hentry) ih
  | last hname hentry hlink =>
    refine .last hname (fun hdirectory => hentry ((hsame.directory_iff _).mp hdirectory)) ?_
    exact fun target htarget => hlink target ((hsame.entries _ (.link target) nofun).mp htarget)
  | @link _ _ _ _ target _ hname hentry hfollow _ ih =>
    exact .link hname ((hsame.entries _ (.link target) nofun).mpr hentry) hfollow ih

namespace Tree

namespace SameWays

theorem walkTrail (hsame : first.SameWays second)
    (h : first.walkTrail followLast trail = .ok place) :
    second.walkTrail followLast trail = .ok place := by
  obtain ⟨hsize, hlimit, n, hn, hwalk⟩ := walkTrail_ok_iff.mp h
  refine walkTrail_ok_iff.mpr ⟨hsize, hlimit, n, hn, ?_⟩
  rw [hsame.workingDirectory]
  exact hwalk.sameWays hsame

theorem walkTrail_iff (hsame : first.SameWays second) :
    second.walkTrail followLast trail = .ok place ↔ first.walkTrail followLast trail = .ok place :=
  ⟨hsame.symm.walkTrail, hsame.walkTrail⟩

theorem ownPlace_isOk (hsame : first.SameWays second) :
    (second.ownPlace trail).isOk = (first.ownPlace trail).isOk := by
  cases hfirst : first.ownPlace trail with
  | ok place => rw [ownPlace, hsame.walkTrail hfirst]
  | error fault =>
    cases hsecond : second.ownPlace trail with
    | error other => rfl
    | ok place =>
      have hback : first.ownPlace trail = .ok place := hsame.symm.walkTrail hsecond
      exact nomatch hfirst.symm.trans hback

theorem file?_stays (hsame : first.SameWays second) (hplace : first.place trail = .ok place)
    (hfile : second.entry? place = some (.file file)) : second.file? trail = .ok (some file) :=
  file?_eq_some_iff.mpr (status_ok_iff.mpr ⟨place, hsame.walkTrail hplace, hfile⟩)

theorem file?_gone (hsame : first.SameWays second) (hplace : first.place trail = .ok place)
    (hnone : second.entry? place = none) : second.file? trail = .ok none := by
  have hsecond : second.place trail = .ok place := hsame.walkTrail hplace
  rw [file?, status, hsecond]
  simp [bind, Except.bind, hnone]

end SameWays

def without (tree : Tree) (home : Location) (names : List String) : Tree :=
  names.foldl (fun files name => files.erase (home ++ [name])) tree

theorem without_workingDirectory (tree : Tree) (home : Location) (names : List String) :
    (tree.without home names).workingDirectory = tree.workingDirectory := by
  induction names generalizing tree with
  | nil => rfl
  | cons name names ih => exact ih (tree.erase (home ++ [name]))

theorem entry_without (tree : Tree) (home : Location) (names : List String) (place : Location) :
    entry? (tree.without home names) place
      = if ∃ name ∈ names, place = home ++ [name] then none else tree.entry? place := by
  induction names generalizing tree with
  | nil => simp [without]
  | cons name names ih =>
    have hcons : entry? (tree.without home (name :: names)) place
        = entry? ((tree.erase (home ++ [name])).without home names) place := rfl
    rw [hcons, ih, entry?_erase]
    by_cases hlater : ∃ other ∈ names, place = home ++ [other]
    · obtain ⟨other, hother, hplace⟩ := hlater
      rw [if_pos ⟨other, hother, hplace⟩, if_pos ⟨other, List.mem_cons_of_mem name hother, hplace⟩]
    · by_cases hfirst : place = home ++ [name]
      · rw [if_neg hlater, if_pos hfirst, if_pos ⟨name, List.mem_cons_self, hfirst⟩]
      · rw [if_neg hlater, if_neg hfirst, if_neg]
        rintro ⟨other, hother, hplace⟩
        rcases List.mem_cons.mp hother with rfl | hmem
        · exact hfirst hplace
        · exact hlater ⟨other, hmem, hplace⟩

theorem without_sameWays
    (hfiles : ∀ name ∈ names, ∃ file, tree.entry? (home ++ [name]) = some (.file file)) :
    tree.SameWays (tree.without home names) where
  workingDirectory := without_workingDirectory tree home names
  entries := by
    intro place entry hentry
    rw [entry_without]
    split
    · next hgone =>
      obtain ⟨name, hname, rfl⟩ := hgone
      obtain ⟨file, hfile⟩ := hfiles name hname
      rw [hfile]
      exact iff_of_false nofun fun hsame => hentry file (Option.some.inj hsame).symm
    · exact Iff.rfl

theorem mem_namesIn {name : String} {entry : Entry} (h : tree.entry? (home ++ [name]) = some entry) :
    name ∈ tree.namesIn home := by
  refine List.mem_filterMap.mpr ⟨(home ++ [name], entry), mem_entries h (List.concat_ne_nil _ _), ?_⟩
  simp

end Tree

end ClipRender.Files
