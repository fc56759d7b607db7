import ClipRender.Proofs.Files.Making

set_option autoImplicit false

/-!
Entries of one directory that come and go. The way to the directory does not lead through them, so
that each of them can be reached by its own path alone.
-/

namespace ClipRender.Files

def Tree.Enters (tree : Tree) (dir : Path) (home : Location) : Prop :=
  (∃ n, Walks tree true n (startFrom tree.workingDirectory dir.anchor) dir.names home) ∧
    tree.entry? home = some .directory

/-- The trees differ at most in what stands under the names in one place. -/
structure Tree.Agrees (names : String → Prop) (home : Location) (first second : Tree) : Prop where
  workingDirectory : second.workingDirectory = first.workingDirectory
  entries : ∀ place, (∀ name, names name → place ≠ home ++ [name]) →
    second.entry? place = first.entry? place

/-- A path leads to the directory at a place, whatever stands under the names in it. -/
structure Housed (names : String → Prop) (tree : Tree) (dir : Path) (home : Location) : Prop where
  directory : tree.entry? home = some .directory
  way : ∃ links ≤ Tree.linkLimit, ∀ other, tree.Agrees names home other →
    Walks other true links (Tree.startFrom other.workingDirectory dir.anchor) dir.names home

structure Path.Roomy (dir : Path) (name : String) : Prop where
  path : (dir.child name).text.utf8ByteSize ≤ Tree.trailLimit
  name : Tree.isTooLong name = false

/-- A name that is no step to the same or the upper directory. -/
def Proper (name : String) : Prop := name ≠ "." ∧ name ≠ ".."

variable {names more : String → Prop} {tree later : Tree} {dir : Path} {home place : Location}
  {name : String}

namespace Tree

namespace Agrees

theorem refl (names : String → Prop) (home : Location) (tree : Tree) :
    tree.Agrees names home tree := ⟨rfl, fun _ _ => rfl⟩

theorem trans {last : Tree} (h : tree.Agrees names home later) (k : later.Agrees names home last) :
    tree.Agrees names home last :=
  ⟨k.workingDirectory.trans h.workingDirectory,
    fun place hplace => (k.entries place hplace).trans (h.entries place hplace)⟩

theorem mono (h : tree.Agrees names home later) (hmore : ∀ name, names name → more name) :
    tree.Agrees more home later :=
  ⟨h.workingDirectory,
    fun place hplace => h.entries place fun name hname => hplace name (hmore name hname)⟩

theorem other (h : tree.Agrees names home later) (hname : ¬ names name) :
    later.entry? (home ++ [name]) = tree.entry? (home ++ [name]) := by
  refine h.entries _ fun other hother hsame => hname ?_
  obtain rfl : name = other := by simpa using hsame
  exact hother

end Agrees

theorem lookup_filter {entries : List (Location × Entry)} (gone place : Location) :
    (entries.filter (·.1 ≠ gone)).lookup place
      = if place = gone then none else entries.lookup place := by
  induction entries with
  | nil => simp
  | cons entry rest ih =>
    obtain ⟨at', value⟩ := entry
    by_cases hgone : at' = gone
    · subst hgone
      by_cases hplace : place = at'
      · simpa [hplace] using ih
      · simpa [hplace, List.lookup_cons, beq_false_of_ne hplace] using ih
    · by_cases hplace : place = at'
      · simp [hplace, hgone]
      · simpa [hgone, List.lookup_cons, beq_false_of_ne hplace] using ih

theorem entry?_put (tree : Tree) (home : Location) (name : String) (entry : Entry) (place : Location) :
    Tree.entry? (tree.put (home ++ [name]) entry) place
      = if place = home ++ [name] then some entry else tree.entry? place := by
  by_cases hplace : place = home ++ [name]
  · simp [ entry?, put, hplace]
  · rw [if_neg hplace, entry?, entry?, put]
    dsimp only
    rw [List.lookup_cons, beq_false_of_ne hplace]
    dsimp only
    rw [lookup_filter, if_neg hplace]

theorem entry?_erase (tree : Tree) (home : Location) (name : String) (place : Location) :
    Tree.entry? (tree.erase (home ++ [name])) place
      = if place = home ++ [name] then none else tree.entry? place := by
  rw [ entry?, entry?, erase]
  dsimp only
  rw [lookup_filter]
  by_cases hplace : place = home ++ [name] <;> simp [hplace]

theorem agrees_put (tree : Tree) (home : Location) (name : String) (entry : Entry) :
    tree.Agrees (· = name) home (tree.put (home ++ [name]) entry) :=
  ⟨rfl, fun place hplace => by rw [entry?_put, if_neg (hplace name rfl)]⟩

theorem agrees_erase (tree : Tree) (home : Location) (name : String) :
    tree.Agrees (· = name) home (tree.erase (home ++ [name])) :=
  ⟨rfl, fun place hplace => by rw [entry?_erase, if_neg (hplace name rfl)]⟩

end Tree

theorem Path.size_pos (path : Path) : path.text.utf8ByteSize ≠ 0 := by
  rw [Path.text]
  split
  · decide
  · next hsome => simpa [String.isEmpty] using hsome

theorem Walks.plain {followLast : Bool} {n : Nat} {rest : List String} (hname : Proper name)
    (h : Walks tree followLast n home (name :: rest) place) : Plain name := by
  cases h with
  | dot hdot => exact absurd hdot hname.1
  | up hup => exact absurd hup hname.2
  | down hplain => exact hplain
  | last hplain => exact hplain
  | link hplain => exact hplain

theorem Walks.step_iff {followLast : Bool} {n : Nat} (hname : Proper name)
    (hlink : ∀ target, tree.entry? (home ++ [name]) = some (.link target) → followLast = false) :
    Walks tree followLast n home [name] place
      ↔ Tree.isTooLong name = false ∧ n = 0 ∧ place = home ++ [name] := by
  by_cases hlong : Tree.isTooLong name = true
  · refine ⟨fun h => ?_, fun h => by simp [hlong] at h⟩
    cases h with
    | dot hdot => exact absurd hdot hname.1
    | up hup => exact absurd hup hname.2
    | down hplain => simp [hplain.short] at hlong
    | last hplain => simp [hplain.short] at hlong
    | link hplain => simp [hplain.short] at hlong
  · have hplain : Plain name := ⟨hname.1, hname.2, by simpa using hlong⟩
    by_cases hentry : tree.entry? (home ++ [name]) = some .directory
    · rw [down_iff hplain hentry, nil_iff]
      simp [hplain.short]
    · rw [last_iff hplain hentry fun target htarget => ⟨rfl, hlink target htarget⟩]
      simp [hplain.short]

namespace Housed

variable (h : Housed names tree dir home)

include h

theorem agrees (hagrees : tree.Agrees names home later) : Housed names later dir home := by
  obtain ⟨links, hlinks, hway⟩ := h.way
  refine ⟨?_, links, hlinks, fun other hother => hway other (hagrees.trans hother)⟩
  rw [hagrees.entries home fun name _ => by simp]
  exact h.directory

theorem walkTrail_iff : ∃ links ≤ Tree.linkLimit, ∀ later, tree.Agrees names home later →
    ∀ followLast name place, later.walkTrail followLast (dir.child name) = .ok place ↔
      (dir.child name).text.utf8ByteSize ≤ Tree.trailLimit ∧
        ∃ m, links + m ≤ Tree.linkLimit ∧ Walks later followLast m home [name] place := by
  obtain ⟨links, hlinks, hway⟩ := h.way
  refine ⟨links, hlinks, fun later hagrees followLast name place => ?_⟩
  have goes_on : ∀ n, Walks later followLast n
      (Tree.startFrom later.workingDirectory dir.anchor) (dir.names ++ [name]) place ↔
        ∃ m, n = links + m ∧ Walks later followLast m home [name] place :=
    fun n => (hway later hagrees).append_iff (h.agrees hagrees).directory (by simp)
  have steps : ((dir.child name : Path) : Trail).steps = dir.names ++ [name] := List.append_nil _
  rw [Tree.walkTrail_ok_iff, steps]
  simp only [Path.trail, Path.child, goes_on]
  constructor
  · rintro ⟨_, hpath, _, hlimit, m, rfl, hstep⟩
    exact ⟨hpath, m, hlimit, hstep⟩
  · rintro ⟨hpath, m, hlimit, hstep⟩
    exact ⟨Path.size_pos _, hpath, _, hlimit, m, rfl, hstep⟩

theorem walkTrail_entry {followLast : Bool} (hname : Proper name)
    (hlink : ∀ target, tree.entry? (home ++ [name]) = some (.link target) → followLast = false) :
    tree.walkTrail followLast (dir.child name) = .ok place
      ↔ dir.Roomy name ∧ place = home ++ [name] := by
  obtain ⟨links, hlinks, htrail⟩ := h.walkTrail_iff
  rw [htrail tree (.refl names home tree)]
  simp only [Walks.step_iff hname hlink]
  constructor
  · rintro ⟨hpath, _, _, hshort, rfl, rfl⟩
    exact ⟨⟨hpath, hshort⟩, rfl⟩
  · rintro ⟨hroomy, rfl⟩
    exact ⟨hroomy.path, 0, hlinks, hroomy.name, rfl, rfl⟩

theorem ownPlace_iff (hname : Proper name) :
    tree.ownPlace (dir.child name) = .ok place ↔ dir.Roomy name ∧ place = home ++ [name] :=
  h.walkTrail_entry hname fun _ _ => rfl

theorem place_iff (hname : Proper name)
    (hlink : ∀ target, tree.entry? (home ++ [name]) ≠ some (.link target)) :
    tree.place (dir.child name) = .ok place ↔ dir.Roomy name ∧ place = home ++ [name] :=
  h.walkTrail_entry hname fun target htarget => absurd htarget (hlink target)

theorem itself?_eq (hname : Proper name) (hroomy : dir.Roomy name) :
    tree.itself? (dir.child name) = tree.entry? (home ++ [name]) := by
  rw [Tree.itself?, (h.ownPlace_iff hname).mpr ⟨hroomy, rfl⟩]

theorem itself?_unreachable (hname : Proper name) (hroomy : ¬ dir.Roomy name) :
    tree.itself? (dir.child name) = none := by
  rw [Tree.itself?]
  cases hplace : tree.ownPlace (dir.child name) with
  | error => rfl
  | ok place => exact absurd ((h.ownPlace_iff hname).mp hplace).1 hroomy

theorem itself?_congr (hname : Proper name) (hagrees : tree.Agrees names home later)
    (hentry : later.entry? (home ++ [name]) = tree.entry? (home ++ [name])) :
    later.itself? (dir.child name) = tree.itself? (dir.child name) := by
  by_cases hroomy : dir.Roomy name
  · rw [h.itself?_eq hname hroomy, (h.agrees hagrees).itself?_eq hname hroomy, hentry]
  · rw [h.itself?_unreachable hname hroomy, (h.agrees hagrees).itself?_unreachable hname hroomy]

theorem status_iff (hname : Proper name) {entry : Entry}
    (hlink : ∀ target, tree.entry? (home ++ [name]) ≠ some (.link target)) :
    tree.status (dir.child name) = .ok entry
      ↔ dir.Roomy name ∧ tree.entry? (home ++ [name]) = some entry := by
  rw [Tree.status_ok_iff]
  simp only [h.place_iff hname hlink]
  constructor
  · rintro ⟨_, ⟨hroomy, rfl⟩, hentry⟩
    exact ⟨hroomy, hentry⟩
  · rintro ⟨hroomy, hentry⟩
    exact ⟨_, ⟨hroomy, rfl⟩, hentry⟩

theorem remove_eq (hname : Proper name) (hremove : tree.remove (dir.child name) = .ok later) :
    later = tree.erase (home ++ [name]) ∧ dir.Roomy name := by
  obtain ⟨place, hplace, hrest⟩ := bind_eq_ok hremove
  obtain ⟨hroomy, rfl⟩ := (h.ownPlace_iff hname).mp hplace
  split at hrest
  · contradiction
  · contradiction
  · exact ⟨(Except.ok.inj hrest).symm, hroomy⟩

theorem makeDirectory_eq (hname : Proper name)
    (hmake : tree.makeDirectory (dir.child name) = .ok later) :
    later = tree.put (home ++ [name]) .directory := by
  obtain ⟨place, hplace, hrest⟩ := bind_eq_ok hmake
  obtain ⟨_, rfl⟩ := (h.ownPlace_iff hname).mp hplace
  split at hrest
  · contradiction
  · exact (Except.ok.inj hrest).symm

theorem write_eq (hname : Proper name)
    (hlink : ∀ target, tree.entry? (home ++ [name]) ≠ some (.link target)) {file : File}
    (hwrite : tree.write (dir.child name) file = .ok later) :
    later = tree.put (home ++ [name]) (.file file) := by
  obtain ⟨place, hplace, hrest⟩ := bind_eq_ok hwrite
  obtain ⟨_, rfl⟩ := (h.place_iff hname hlink).mp hplace
  split at hrest
  · contradiction
  · exact (Except.ok.inj hrest).symm

theorem roomy {followLast : Bool} (hname : Proper name)
    (hwalk : tree.walkTrail followLast (dir.child name) = .ok place) : dir.Roomy name := by
  obtain ⟨links, _, htrail⟩ := h.walkTrail_iff
  obtain ⟨hpath, m, _, hstep⟩ := (htrail tree (.refl names home tree) _ _ _).mp hwalk
  exact ⟨hpath, (hstep.plain hname).short⟩

theorem write_free (hname : Proper name) (hfree : tree.itself? (dir.child name) = none) {file : File}
    (hwrite : tree.write (dir.child name) file = .ok later) :
    later = tree.put (home ++ [name]) (.file file) := by
  have written := hwrite
  obtain ⟨place, hplace, _⟩ := bind_eq_ok written
  have nothing : tree.entry? (home ++ [name]) = none := by
    rw [← h.itself?_eq hname (h.roomy hname hplace), hfree]
  exact h.write_eq hname (by simp [nothing]) hwrite

theorem remove_file (hname : Proper name) {file : File}
    (hfile : tree.file? (dir.child name) = .ok (some file)) :
    ∃ later, tree.remove (dir.child name) = .ok later := by
  have hstatus := Tree.file?_eq_some_iff.mp hfile
  obtain ⟨place, hplace, _⟩ := Tree.status_ok_iff.mp hstatus
  have hroomy := h.roomy hname hplace
  have something := Tree.itself?_isSome hstatus
  rw [h.itself?_eq hname hroomy] at something
  have own := (h.ownPlace_iff hname).mpr ⟨hroomy, rfl⟩
  rw [Tree.remove, own]
  cases hentry : tree.entry? (home ++ [name]) with
  | none => simp [hentry] at something
  | some entry =>
    cases entry with
    | directory =>
      have := ((h.status_iff hname (by simp [hentry])).mp hstatus).2
      simp [hentry] at this
    | file => exact ⟨tree.erase (home ++ [name]), by simp only [bind, Except.bind, hentry]⟩
    | link => exact ⟨tree.erase (home ++ [name]), by simp only [bind, Except.bind, hentry]⟩

theorem rename_eq {source target : String} (hsource : Proper source) (htarget : Proper target)
    (hrename : tree.rename (dir.child source) (dir.child target) = .ok later) :
    dir.Roomy source ∧ dir.Roomy target ∧ ∃ entry, tree.entry? (home ++ [source]) = some entry ∧
      later = (tree.erase (home ++ [source])).put (home ++ [target]) entry := by
  obtain ⟨fromPlace, hfrom, hrest⟩ := bind_eq_ok hrename
  obtain ⟨toPlace, hto, hmoved⟩ := bind_eq_ok hrest
  obtain ⟨hroomy, rfl⟩ := (h.ownPlace_iff hsource).mp hfrom
  obtain ⟨hspace, rfl⟩ := (h.ownPlace_iff htarget).mp hto
  refine ⟨hroomy, hspace, ?_⟩
  split at hmoved
  · contradiction
  · contradiction
  · next entry hentry _ => exact ⟨entry, hentry, (Except.ok.inj hmoved).symm⟩

end Housed

theorem Housed.enters (h : Housed names tree dir home) : tree.Enters dir home := by
  obtain ⟨links, _, hway⟩ := h.way
  exact ⟨⟨links, hway tree (.refl names home tree)⟩, h.directory⟩

theorem Tree.Enters.ensureDirectories_eq {s : String} (h : tree.Enters (Path.ofText s) home)
    (hsound : Sound tree) : (tree.ensureDirectories (Path.ofText s).text).1 = tree := by
  obtain ⟨hanchor, hdotted⟩ := Path.text_read s
  obtain ⟨⟨links, hway⟩, hhome⟩ := h
  refine Tree.ensureDirectories_eq hsound ⟨links, home, ?_, hhome⟩
  rw [hanchor]
  exact hway.dotted hhome hdotted

/-- A link goes elsewhere, to a place where nothing is. -/
structure Tree.Relinks (first : Tree) (source target : Location) (text : String) (second : Tree) :
    Prop where
  left : first.entry? source = some (.link text)
  free : first.entry? target = none
  others : ∀ place, place ≠ source → place ≠ target → second.entry? place = first.entry? place

namespace Tree.Relinks

variable {source target : Location} {text : String} {entry : Entry}
  (h : tree.Relinks source target text later)

include h

theorem keeps (hsource : place ≠ source) (hentry : tree.entry? place = some entry) :
    later.entry? place = some entry := by
  refine (h.others place hsource fun hsame => ?_).trans hentry
  rw [hsame, h.free] at hentry
  contradiction

theorem keeps_other (hlink : entry ≠ .link text) (hentry : tree.entry? place = some entry) :
    later.entry? place = some entry := by
  refine h.keeps (fun hsame => hlink ?_) hentry
  rw [hsame, h.left] at hentry
  exact (Option.some.inj hentry).symm

end Tree.Relinks

/-- Where the link that a walk meets leads back to it, the walk never ends. -/
theorem Walks.no_circle {n : Nat} {start : Location} {steps rest : List String}
    (hback : ∀ more m other, Walks tree true m start (steps ++ more) other →
      ∃ k < m, Walks tree true k start (steps ++ (rest ++ more)) other) :
    ¬ Walks tree true n start steps place := by
  rw [← List.append_nil steps]
  refine no_descent (P := fun n more => Walks tree true n start (steps ++ more) place)
    (fun n more h => ?_) n []
  obtain ⟨k, hk, hagain⟩ := hback more n place h
  exact ⟨k, hk, _, hagain⟩

/-- A walk to an entry does without the link that has moved, or it goes through the link and so
takes more and more steps. -/
theorem Walks.detour {n : Nat} {here target : Location} {text : String} {steps : List String}
    (hmoves : tree.Relinks (home ++ [name]) target text later)
    (h : Walks tree true n here steps place) (hplace : (tree.entry? place).isSome = true) :
    Walks later true n here steps place ∨ ∃ rest, ∀ more m other,
      Walks tree true m here (steps ++ more) other → ∃ k < m,
        Walks tree true k (Tree.startFrom home (Trail.ofText text).anchor)
          ((Trail.ofText text).steps ++ (rest ++ more)) other := by
  induction h with
  | stay => exact .inl .stay
  | dot hdot _ ih =>
    subst hdot
    exact (ih hplace).imp (.dot rfl) fun ⟨rest, hback⟩ =>
      ⟨rest, fun more m other hwalk => hback more m other (dot_iff.mp hwalk)⟩
  | up hup _ ih =>
    subst hup
    exact (ih hplace).imp (.up rfl) fun ⟨rest, hback⟩ =>
      ⟨rest, fun more m other hwalk => hback more m other (up_iff.mp hwalk)⟩
  | down hname hentry _ ih =>
    have same := hmoves.keeps_other (by simp) hentry
    exact (ih hplace).imp (.down hname same) fun ⟨rest, hback⟩ =>
      ⟨rest, fun more m other hwalk => hback more m other ((down_iff hname hentry).mp hwalk)⟩
  | @last here other hname hentry hlink =>
    obtain ⟨entry, hsome⟩ := Option.isSome_iff_exists.mp hplace
    have same := hmoves.keeps_other
      (fun hlinks => absurd (hlink text (hlinks ▸ hsome)) (by simp)) hsome
    rw [hsome, ← same] at hentry hlink
    exact .inl (.last hname hentry hlink)
  | @link n here place other target rest hname hentry hfollow _ ih =>
    by_cases hsame : here ++ [other] = home ++ [name]
    · obtain ⟨rfl, rfl⟩ : here = home ∧ other = name := by simpa using hsame
      obtain rfl : target = text := by simpa [hmoves.left] using hentry.symm
      refine .inr ⟨rest, fun more m last hwalk => ?_⟩
      obtain ⟨k, rfl, hlater⟩ := (link_iff hname hentry fun _ => rfl).mp hwalk
      exact ⟨k, Nat.lt_succ_self k, hlater⟩
    · refine (ih hplace).imp (.link hname (hmoves.keeps hsame hentry) hfollow) fun ⟨more, hback⟩ =>
        ⟨more, fun still m last hwalk => ?_⟩
      obtain ⟨k, rfl, hlater⟩ := (link_iff hname hentry fun _ => rfl).mp hwalk
      obtain ⟨j, hj, hagain⟩ := hback still k last (by rwa [List.append_assoc])
      exact ⟨j, Nat.lt_succ_of_lt hj, hagain⟩

/-- A link that has moved leads where it has led before. -/
theorem Walks.moved {n : Nat} {target : Location} {text : String}
    (hmoves : tree.Relinks (home ++ [name]) target text later)
    (h : Walks tree true n (Tree.startFrom home (Trail.ofText text).anchor)
      (Trail.ofText text).steps place) (hplace : (tree.entry? place).isSome = true) :
    Walks later true n (Tree.startFrom home (Trail.ofText text).anchor)
      (Trail.ofText text).steps place := by
  rcases h.detour hmoves hplace with hlater | ⟨rest, hback⟩
  · exact hlater
  · exact absurd h (Walks.no_circle hback)

/-- A link that is given another name still leads where it has led. -/
theorem Housed.status_relinked (h : Housed names tree dir home) {source target text : String}
    {file : File} (hsource : Proper source) (htarget : Proper target)
    (hroomy : dir.Roomy source) (hspace : dir.Roomy target)
    (hentry : tree.entry? (home ++ [source]) = some (.link text))
    (hfree : tree.entry? (home ++ [target]) = none)
    (hstatus : tree.status (dir.child source) = .ok (.file file))
    (hagrees : tree.Agrees names home
      ((tree.erase (home ++ [source])).put (home ++ [target]) (.link text))) :
    Tree.status ((tree.erase (home ++ [source])).put (home ++ [target]) (.link text))
      (dir.child target) = .ok (.file file) := by
  obtain ⟨links, hlinks, htrail⟩ := h.walkTrail_iff
  obtain ⟨place, hplace, hfile⟩ := Tree.status_ok_iff.mp hstatus
  obtain ⟨_, m, hlimit, hwalk⟩ := (htrail tree (.refl names home tree) _ _ _).mp hplace
  have plain : Plain source := ⟨hsource.1, hsource.2, hroomy.name⟩
  obtain ⟨n, rfl, htext⟩ := (Walks.link_iff plain hentry fun _ => rfl).mp hwalk
  rw [List.append_nil] at htext
  have relinks : tree.Relinks (home ++ [source]) (home ++ [target]) text
      ((tree.erase (home ++ [source])).put (home ++ [target]) (.link text)) := by
    refine ⟨hentry, hfree, fun place hfrom hto => ?_⟩
    rw [Tree.entry?_put, if_neg hto, Tree.entry?_erase, if_neg hfrom]
  have moved := htext.moved relinks (by rw [hfile]; rfl)
  have found := relinks.keeps_other (by simp) hfile
  have there : Tree.entry? ((tree.erase (home ++ [source])).put (home ++ [target]) (.link text))
      (home ++ [target]) = some (.link text) := by
    rw [Tree.entry?_put, if_pos rfl]
  rw [Tree.status_ok_iff]
  refine ⟨place, (htrail _ hagrees _ _ _).mpr ⟨hspace.path, n + 1, hlimit, ?_⟩, found⟩
  exact .link ⟨htarget.1, htarget.2, hspace.name⟩ there (fun _ => rfl) (by rwa [List.append_nil])

/-- A file, or a link to one, is still found once it has been moved to a free name. -/
theorem Housed.renamed (h : Housed names tree dir home) {source target : String} {file : File}
    (hsource : Proper source) (htarget : Proper target) (hne : source ≠ target)
    (hnames : names source ∧ names target)
    (hstatus : tree.status (dir.child source) = .ok (.file file))
    (hfree : tree.entry? (home ++ [target]) = none)
    (hrename : tree.rename (dir.child source) (dir.child target) = .ok later) :
    later.status (dir.child target) = .ok (.file file) ∧
      later.entry? (home ++ [source]) = none ∧
      tree.Agrees (fun name => name = source ∨ name = target) home later := by
  obtain ⟨hroomy, hspace, entry, hentry, rfl⟩ := h.rename_eq hsource htarget hrename
  have apart : home ++ [source] ≠ home ++ [target] := by simpa using hne
  have agrees : tree.Agrees (fun name => name = source ∨ name = target) home
      ((tree.erase (home ++ [source])).put (home ++ [target]) entry) :=
    ((tree.agrees_erase home source).mono fun _ => .inl).trans
      ((Tree.agrees_put _ home target entry).mono fun _ => .inr)
  have gone : Tree.entry? ((tree.erase (home ++ [source])).put (home ++ [target]) entry)
      (home ++ [source]) = none := by
    rw [Tree.entry?_put, if_neg apart, Tree.entry?_erase, if_pos rfl]
  have there : Tree.entry? ((tree.erase (home ++ [source])).put (home ++ [target]) entry)
      (home ++ [target]) = some entry := by
    rw [Tree.entry?_put, if_pos rfl]
  have allowed : tree.Agrees names home
      ((tree.erase (home ++ [source])).put (home ++ [target]) entry) :=
    agrees.mono fun name hname =>
      hname.elim (fun hsame => hsame ▸ hnames.1) fun hsame => hsame ▸ hnames.2
  refine ⟨?_, gone, agrees⟩
  have later := h.agrees allowed
  cases entry with
  | directory =>
    have := ((h.status_iff hsource (by simp [hentry])).mp hstatus).2
    simp [hentry] at this
  | file other =>
    have hfile := ((h.status_iff hsource (by simp [hentry])).mp hstatus).2
    rw [hentry] at hfile
    rw [later.status_iff htarget (by simp [there])]
    exact ⟨hspace, there.trans hfile⟩
  | link text =>
    exact h.status_relinked hsource htarget hroomy hspace hentry hfree hstatus allowed

end ClipRender.Files
