import ClipRender.Proofs.Files.Housing

set_option autoImplicit false

/-!
A file that is given another name in its directory. Wherever links lead, the file is found under
the new name if anything is.
-/

namespace ClipRender.Files

variable {tree later : Tree} {followLast : Bool} {n : Nat} {here place home : Location}
  {name : String} {names rest : List String}

theorem Tree.startFrom_directory (hplace : tree.entry? place = some .directory) (anchor : Anchor) :
    tree.entry? (startFrom place anchor) = some .directory := by
  cases anchor with
  | relative => exact hplace
  | _ => rfl

theorem Sound.moved (h : Sound tree) {source target : String} {entry : Entry}
    (hsource : tree.entry? (home ++ [source]) = some entry) (hentry : entry ≠ .directory)
    (htarget : tree.entry? (home ++ [target]) ≠ some .directory) :
    Sound ((tree.erase (home ++ [source])).put (home ++ [target]) entry) := by
  have directories : ∀ place, tree.entry? place = some .directory →
      Tree.entry? ((tree.erase (home ++ [source])).put (home ++ [target]) entry) place
        = some .directory := by
    intro place hplace
    rw [Tree.entry?_put, if_neg, Tree.entry?_erase, if_neg, hplace]
    · rintro rfl
      exact hentry (Option.some.inj (hsource.symm.trans hplace))
    · rintro rfl
      exact htarget hplace
  refine ⟨fun place hsome => directories _ ?_, directories _ h.working⟩
  rw [Tree.entry?_put] at hsome
  split at hsome
  · next hplace =>
    have above := h.above (home ++ [source]) (by rw [hsource]; rfl)
    rw [List.dropLast_concat] at above
    rwa [hplace, List.dropLast_concat]
  · rw [Tree.entry?_erase] at hsome
    split at hsome
    · contradiction
    · exact h.above place hsome

namespace Walks

theorem split (hsound : Sound tree) (h : Walks tree followLast n here (names ++ rest) place)
    (hhere : tree.entry? here = some .directory) (hrest : rest ≠ []) :
    ∃ k m mid, n = k + m ∧ Walks tree true k here names mid ∧
      tree.entry? mid = some .directory ∧ Walks tree followLast m mid rest place := by
  generalize hsteps : names ++ rest = steps at h
  -- The names may have run out before any step, so this is said of all walks at once.
  have nothing : ∀ {n here steps}, [] ++ rest = steps → Walks tree followLast n here steps place →
      tree.entry? here = some .directory → ∃ k m mid, n = k + m ∧ Walks tree true k here [] mid ∧
        tree.entry? mid = some .directory ∧ Walks tree followLast m mid rest place := by
    rintro n here _ rfl h hhere
    exact ⟨0, n, here, (Nat.zero_add n).symm, .stay, hhere, h⟩
  induction h generalizing names with
  | stay => exact absurd (List.append_eq_nil_iff.mp hsteps).2 hrest
  | dot hdot h ih =>
    cases names with
    | nil => exact nothing hsteps (.dot hdot h) hhere
    | cons name names =>
      obtain ⟨rfl, rfl⟩ := List.cons.inj hsteps
      obtain ⟨k, m, mid, hn, hwalk, hmid, hlast⟩ := ih hhere rfl nothing
      exact ⟨k, m, mid, hn, .dot hdot hwalk, hmid, hlast⟩
  | up hup h ih =>
    cases names with
    | nil => exact nothing hsteps (.up hup h) hhere
    | cons name names =>
      obtain ⟨rfl, rfl⟩ := List.cons.inj hsteps
      obtain ⟨k, m, mid, hn, hwalk, hmid, hlast⟩ :=
        ih (hsound.above _ (by rw [hhere]; rfl)) rfl nothing
      exact ⟨k, m, mid, hn, .up hup hwalk, hmid, hlast⟩
  | down hname hentry h ih =>
    cases names with
    | nil => exact nothing hsteps (.down hname hentry h) hhere
    | cons name names =>
      obtain ⟨rfl, rfl⟩ := List.cons.inj hsteps
      obtain ⟨k, m, mid, hn, hwalk, hmid, hlast⟩ := ih hentry rfl nothing
      exact ⟨k, m, mid, hn, .down hname hentry hwalk, hmid, hlast⟩
  | last hname hentry hlink =>
    cases names with
    | nil => exact nothing hsteps (.last hname hentry hlink) hhere
    | cons name names =>
      exact absurd (List.append_eq_nil_iff.mp (List.cons.inj hsteps).2).2 hrest
  | link hname hentry hfollow h ih =>
    cases names with
    | nil => exact nothing hsteps (.link hname hentry hfollow h) hhere
    | cons name names =>
      obtain ⟨rfl, rfl⟩ := List.cons.inj hsteps
      obtain ⟨k, m, mid, rfl, hwalk, hmid, hlast⟩ :=
        ih (Tree.startFrom_directory hhere _) (List.append_assoc _ _ _) nothing
      exact ⟨k + 1, m, mid, by omega, .link hname hentry (fun _ => rfl) hwalk, hmid, hlast⟩

theorem through (hkept : ∀ place entry, (∀ file, entry ≠ .file file) →
      tree.entry? place = some entry → later.entry? place = some entry)
    (h : Walks tree true n here names place) (hplace : tree.entry? place = some .directory) :
    Walks later true n here names place := by
  induction h with
  | stay => exact .stay
  | dot hdot _ ih => exact .dot hdot (ih hplace)
  | up hup _ ih => exact .up hup (ih hplace)
  | down hname hentry _ ih => exact .down hname (hkept _ _ (by simp) hentry) (ih hplace)
  | last _ hentry => exact absurd hplace hentry
  | link hname hentry hfollow _ ih =>
    exact .link hname (hkept _ _ (by simp) hentry) hfollow (ih hplace)

theorem not_link (hsound : Sound tree) (h : Walks tree true n here names place)
    (hhere : tree.entry? here = some .directory) (target : String) :
    tree.entry? place ≠ some (.link target) := by
  induction h with
  | stay => simp [hhere]
  | dot _ _ ih => exact ih hhere
  | up _ _ ih => exact ih (hsound.above _ (by rw [hhere]; rfl))
  | down _ hentry _ ih => exact ih hentry
  | last _ _ hlink => exact fun htarget => absurd (hlink target htarget) (by simp)
  | link _ _ _ _ ih => exact ih (Tree.startFrom_directory hhere _)

/-- A walk from where a link leads to, on to some entry. If it meets the link itself, there is a
shorter walk of this kind; so one of them does without the link, wherever that has moved. -/
theorem returns {target : Location} {text : String}
    (hmoves : tree.Relinks (home ++ [name]) target text later)
    (h : Walks tree true n (Tree.startFrom home (Trail.ofText text).anchor)
      ((Trail.ofText text).steps ++ rest) place) (hplace : (tree.entry? place).isSome = true) :
    ∃ m more, Walks later true m (Tree.startFrom home (Trail.ofText text).anchor)
      ((Trail.ofText text).steps ++ more) place := by
  induction n using Nat.strongRecOn generalizing rest with
  | ind n ih =>
    rcases h.detour hmoves hplace with hlater | ⟨more, hback⟩
    · exact ⟨n, rest, hlater⟩
    · obtain ⟨k, hk, hagain⟩ := hback [] n place (by rwa [List.append_nil])
      exact ih k hk hagain

end Walks

/-- What stands under one name in a directory goes to another name, over a file or link there. -/
structure Tree.Moves (first : Tree) (home : Location) (source target : String) (entry : Entry)
    (second : Tree) : Prop where
  left : first.entry? (home ++ [source]) = some entry
  takes : first.entry? (home ++ [target]) ≠ some .directory
  apart : home ++ [source] ≠ home ++ [target]
  moved : second = (first.erase (home ++ [source])).put (home ++ [target]) entry

section Children

variable {dir : Path} {other : Location}

theorem Tree.Enters.unique (h : tree.Enters dir home) (k : tree.Enters dir other) :
    home = other := by
  obtain ⟨⟨_, hwalk⟩, _⟩ := h
  obtain ⟨⟨_, hagain⟩, _⟩ := k
  exact (hwalk.deterministic hagain).2

theorem Sound.enters (hsound : Sound tree)
    (h : tree.walkTrail followLast (dir.child name) = .ok place) :
    ∃ home m, tree.Enters dir home ∧ Walks tree followLast m home [name] place := by
  obtain ⟨_, _, n, _, hwalk⟩ := Tree.walkTrail_ok_iff.mp h
  have steps : ((dir.child name : Path) : Trail).steps = dir.names ++ [name] := List.append_nil _
  rw [steps] at hwalk
  obtain ⟨k, m, home, _, hway, hhome, hlast⟩ :=
    hwalk.split hsound (Tree.startFrom_directory hsound.working _) (by simp)
  exact ⟨home, m, ⟨⟨k, hway⟩, hhome⟩, hlast⟩

theorem Sound.ownPlace_child (hsound : Sound tree) (hname : Proper name)
    (h : tree.ownPlace (dir.child name) = .ok place) :
    ∃ home, tree.Enters dir home ∧ place = home ++ [name] := by
  obtain ⟨home, m, henters, hlast⟩ := hsound.enters h
  exact ⟨home, henters, ((Walks.step_iff hname fun _ _ => rfl).mp hlast).2.2⟩

theorem Sound.rename_child (hsound : Sound tree) {source target : String} (hsource : Proper source)
    (htarget : Proper target) (hne : source ≠ target)
    (h : tree.rename (dir.child source) (dir.child target) = .ok later) :
    ∃ home entry, tree.Enters dir home ∧ tree.Moves home source target entry later := by
  obtain ⟨fromPlace, hfrom, hrest⟩ := bind_eq_ok h
  obtain ⟨toPlace, hto, hmoved⟩ := bind_eq_ok hrest
  obtain ⟨home, henters, rfl⟩ := hsound.ownPlace_child hsource hfrom
  obtain ⟨other, hagain, rfl⟩ := hsound.ownPlace_child htarget hto
  obtain rfl := henters.unique hagain
  split at hmoved
  · contradiction
  · contradiction
  · next entry hentry hfree =>
    exact ⟨home, entry, henters, hentry, hfree, by simpa using hne, (Except.ok.inj hmoved).symm⟩

theorem Sound.status_child (hsound : Sound tree) (hname : Proper name)
    (henters : tree.Enters dir home) {entry found : Entry}
    (hentry : tree.entry? (home ++ [name]) = some entry)
    (h : tree.status (dir.child name) = .ok found) :
    ((∀ text, entry ≠ .link text) ∧ entry = found) ∨ ∃ text n place, entry = .link text ∧
      Walks tree true n (Tree.startFrom home (Trail.ofText text).anchor) (Trail.ofText text).steps
        place ∧ tree.entry? place = some found := by
  obtain ⟨place, hplace, hfound⟩ := Tree.status_ok_iff.mp h
  obtain ⟨other, m, hagain, hlast⟩ := hsound.enters hplace
  obtain rfl := henters.unique hagain
  by_cases hlink : ∃ text, entry = .link text
  · obtain ⟨text, rfl⟩ := hlink
    obtain ⟨n, rfl, htext⟩ := (Walks.link_iff (hlast.plain hname) hentry fun _ => rfl).mp hlast
    rw [List.append_nil] at htext
    exact .inr ⟨text, n, place, rfl, htext, hfound⟩
  · have direct : ∀ text, entry ≠ .link text := fun text htext => hlink ⟨text, htext⟩
    obtain ⟨_, _, rfl⟩ := (Walks.step_iff hname fun text htext =>
      absurd (Option.some.inj (hentry.symm.trans htext)) (direct text)).mp hlast
    exact .inl ⟨direct, Option.some.inj (hentry.symm.trans hfound)⟩

theorem Sound.place_child (hsound : Sound tree) (hname : Proper name) {entry : Entry}
    (hstatus : tree.status (dir.child name) = .ok entry)
    (hlink : ∀ text, tree.itself? (dir.child name) ≠ some (.link text))
    (hplace : tree.place (dir.child name) = .ok place) : ∃ home, place = home ++ [name] := by
  obtain ⟨own, hown, _⟩ := Tree.exists_ownPlace hstatus
  obtain ⟨home, henters, rfl⟩ := hsound.ownPlace_child hname hown
  obtain ⟨other, m, hagain, hlast⟩ := hsound.enters hplace
  obtain rfl := henters.unique hagain
  refine ⟨home, ((Walks.step_iff hname fun text htext => absurd ?_ (hlink text)).mp hlast).2.2⟩
  rw [Tree.itself?, hown]
  exact htext

/-- Where something stands in a directory there is no directory to make. -/
theorem Sound.ensureDirectories_above {text : String} (hsound : Sound tree) (hname : Proper name)
    {entry : Entry} (hthere : tree.itself? ((Path.ofText text).child name) = some entry) :
    (tree.ensureDirectories (Path.ofText text).text).1 = tree := by
  rw [Tree.itself?] at hthere
  split at hthere
  · next own hown =>
    obtain ⟨home, henters, _⟩ := hsound.ownPlace_child hname hown
    exact henters.ensureDirectories_eq hsound
  · contradiction

end Children

namespace Tree.Moves

variable {source target text : String} {entry : Entry} {file : File} {dir : Path}

theorem there (h : tree.Moves home source target entry later) :
    later.entry? (home ++ [target]) = some entry := by
  rw [h.moved, entry?_put, if_pos rfl]

theorem gone (h : tree.Moves home source target entry later) :
    later.entry? (home ++ [source]) = none := by
  rw [h.moved, entry?_put, if_neg h.apart, entry?_erase, if_pos rfl]

theorem others (h : tree.Moves home source target entry later) (hsource : place ≠ home ++ [source])
    (htarget : place ≠ home ++ [target]) : later.entry? place = tree.entry? place := by
  rw [h.moved, entry?_put, if_neg htarget, entry?_erase, if_neg hsource]

theorem workingDirectory (h : tree.Moves home source target entry later) :
    later.workingDirectory = tree.workingDirectory := by
  rw [h.moved]
  rfl

theorem sound (h : tree.Moves home source target entry later) (hsound : Sound tree)
    (hentry : entry ≠ .directory) : Sound later := by
  rw [h.moved]
  exact hsound.moved h.left hentry h.takes

/-- Taken back, a link goes to where nothing is. -/
theorem relinks (h : tree.Moves home source target (.link text) later) :
    later.Relinks (home ++ [target]) (home ++ [source]) text tree where
  left := h.there
  free := h.gone
  others _ htarget hsource := (h.others hsource htarget).symm

section Files

variable (h : tree.Moves home source target (.file file) later)

include h

theorem earlier (hother : ∀ file, entry ≠ .file file) (hentry : later.entry? place = some entry) :
    tree.entry? place = some entry := by
  rw [← hentry, h.others]
  · rintro rfl
    rw [h.gone] at hentry
    contradiction
  · rintro rfl
    exact hother file (Option.some.inj (h.there.symm.trans hentry)).symm

theorem enters_of_file (henters : later.Enters dir place) : tree.Enters dir place := by
  obtain ⟨⟨n, hwalk⟩, hplace⟩ := henters
  rw [h.workingDirectory] at hwalk
  exact ⟨⟨n, hwalk.through (fun _ _ => h.earlier) hplace⟩, h.earlier (by simp) hplace⟩

end Files

section Links

variable (h : tree.Moves home source target (.link text) later) (hsound : Sound tree) {n m : Nat}
  {found other : Location}
  (htext : Walks tree true n (startFrom home (Trail.ofText text).anchor) (Trail.ofText text).steps
    found)
  (hfound : tree.entry? found = some (.file file))

include h

theorem keeps_found (hfound : tree.entry? found = some (.file file)) :
    later.entry? found = some (.file file) ∨ later.entry? found = some (.link text) := by
  by_cases htarget : found = home ++ [target]
  · exact .inr (htarget ▸ h.there)
  · refine .inl ((h.others ?_ htarget).trans hfound)
    rintro rfl
    exact nomatch hfound.symm.trans h.left

include hsound htext hfound

theorem leads_on (hhome : tree.entry? home = some .directory)
    (hwalk : Walks later true m (startFrom home (Trail.ofText text).anchor)
      ((Trail.ofText text).steps ++ rest) place)
    (hplace : (later.entry? place).isSome = true) : place = found := by
  obtain ⟨k, more, hback⟩ := hwalk.returns h.relinks hplace
  by_cases hmore : more = []
  · rw [hmore, List.append_nil] at hback
    exact (hback.deterministic htext).2
  · obtain ⟨_, _, mid, _, hway, hmid, _⟩ :=
      hback.split hsound (startFrom_directory hhome _) hmore
    rw [(hway.deterministic htext).2, hfound] at hmid
    simp at hmid

theorem enters_of_link (hhome : tree.entry? home = some .directory)
    (henters : later.Enters dir place) : tree.Enters dir place := by
  obtain ⟨⟨n, hwalk⟩, hplace⟩ := henters
  have something : (later.entry? place).isSome = true := by rw [hplace]; rfl
  rw [h.workingDirectory] at hwalk
  rcases hwalk.detour h.relinks something with hearlier | ⟨rest, hback⟩
  · exact ⟨⟨n, hearlier⟩, (h.relinks.keeps_other (by simp) hplace)⟩
  · rw [← List.append_nil dir.names] at hwalk
    obtain ⟨_, _, hagain⟩ := hback [] n place hwalk
    obtain rfl := h.leads_on hsound htext hfound hhome hagain something
    rcases h.keeps_found hfound with hfile | hlink
    · exact nomatch hplace.symm.trans hfile
    · exact nomatch hplace.symm.trans hlink

end Links

end Tree.Moves

/-- A file that has been given another name in its directory. The old name is free, and under the
new one it is found, unless nothing is. -/
theorem Sound.renamed (hsound : Sound tree) {dir : Path} {source target : String} {file : File}
    (hsource : Proper source) (htarget : Proper target) (hne : source ≠ target)
    (hfile : tree.file? (dir.child source) = .ok (some file))
    (hrename : tree.rename (dir.child source) (dir.child target) = .ok later) :
    later.itself? (dir.child source) = none ∧
      ∀ entry, later.status (dir.child target) = .ok entry → entry = .file file := by
  obtain ⟨home, entry, henters, hmoves⟩ := hsound.rename_child hsource htarget hne hrename
  have way := hsound.status_child hsource henters hmoves.left (Tree.file?_eq_some_iff.mp hfile)
  have plain : entry ≠ .directory := by
    rcases way with ⟨_, rfl⟩ | ⟨_, _, _, rfl, _⟩ <;> simp
  have sound := hmoves.sound hsound plain
  -- Links may have come to lead through the new name, but not to another directory.
  have same : ∀ other, later.Enters dir other → other = home := by
    intro other hother
    rcases way with ⟨_, rfl⟩ | ⟨text, n, found, rfl, htext, hfound⟩
    · exact (hmoves.enters_of_file hother).unique henters
    · exact (hmoves.enters_of_link hsound htext hfound henters.2 hother).unique henters
  refine ⟨?_, fun found hstatus => ?_⟩
  · rw [Tree.itself?]
    split
    · next place hplace =>
      obtain ⟨other, hother, rfl⟩ := sound.ownPlace_child hsource hplace
      rw [same other hother]
      exact hmoves.gone
    · rfl
  · obtain ⟨_, hplace, _⟩ := Tree.status_ok_iff.mp hstatus
    obtain ⟨other, _, hother, _⟩ := sound.enters hplace
    obtain rfl := same other hother
    rcases way with ⟨direct, rfl⟩ | ⟨text, n, place, rfl, htext, hplace⟩
    · rcases sound.status_child htarget hother hmoves.there hstatus with
        ⟨_, rfl⟩ | ⟨text, _, _, hlink, _⟩
      · rfl
      · exact absurd hlink (direct text)
    · rcases sound.status_child htarget hother hmoves.there hstatus with
        ⟨direct, _⟩ | ⟨text, _, last, hlink, hwalk, hlast⟩
      · exact absurd rfl (direct text)
      · obtain rfl := Entry.link.inj hlink
        have something : (later.entry? last).isSome = true := by rw [hlast]; rfl
        have arrives := hwalk
        rw [← List.append_nil (Trail.ofText text).steps] at arrives
        obtain rfl := hmoves.leads_on hsound htext hplace henters.2 arrives something
        rcases hmoves.keeps_found hplace with hfile | hlink
        · exact Option.some.inj (hlast.symm.trans hfile)
        · exact absurd hlink (hwalk.not_link sound (Tree.startFrom_directory hother.2 _) text)

end ClipRender.Files
