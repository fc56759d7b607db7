import ClipRender.Proofs.Files.Renaming
import ClipRender.Proofs.Files.Resolving
import ClipRender.Proofs.Sweeping
import Mathlib.Data.List.Nodup

set_option autoImplicit false

/-!
What a sweep reports. Each path leads to one of the files that are taken, no two of them to the
same, and a second sweep finds nothing more. The later a sweep, the more it takes.
-/

namespace ClipRender

namespace Files

variable {tree : Tree} {home place : Location} {directory name : String} {names : List String}

/-- A tree as a file system keeps it: one entry at each place, all of them in directories, and under
names that are no steps and hold no slash. -/
structure Listed (tree : Tree) : Prop where
  sound : Sound tree
  distinct : (tree.entries.map Prod.fst).Nodup
  named : ∀ place, (tree.entry? place).isSome = true →
    ∀ name ∈ place, Named name ∧ '/' ∉ name.toList

theorem Listed.of_entries (hsound : Sound tree) (hdistinct : (tree.entries.map Prod.fst).Nodup)
    (h : ∀ entry ∈ tree.entries, ∀ name ∈ entry.1, Named name ∧ '/' ∉ name.toList) :
    Listed tree where
  sound := hsound
  distinct := hdistinct
  named := by
    intro place hsome name hname
    obtain ⟨entry, hentry⟩ := Option.isSome_iff_exists.mp hsome
    exact h _ (Tree.mem_entries hentry (List.ne_nil_of_mem hname)) name hname

namespace Tree

theorem namesIn_eq (tree : Tree) (home : Location) :
    tree.namesIn home = (tree.entries.map Prod.fst).filterMap fun place =>
      if place.dropLast = home then place.getLast? else none := by
  rw [namesIn, List.filterMap_map]
  rfl

theorem nodup_namesIn (h : (tree.entries.map Prod.fst).Nodup) : (tree.namesIn home).Nodup := by
  rw [namesIn_eq]
  refine h.filterMap fun first second name hfirst hsecond => ?_
  rw [Option.mem_def, Option.ite_none_right_eq_some] at hfirst hsecond
  obtain ⟨hhome, hlast⟩ := hfirst
  obtain ⟨hhome', hlast'⟩ := hsecond
  rw [← List.dropLast_append_getLast? name hlast, ← List.dropLast_append_getLast? name hlast',
    hhome, hhome']

theorem distinct_erase (h : (tree.entries.map Prod.fst).Nodup) :
    ((tree.erase place).entries.map Prod.fst).Nodup :=
  h.sublist (List.filter_sublist.map Prod.fst)

theorem distinct_without (h : (tree.entries.map Prod.fst).Nodup) :
    ((tree.without home names).entries.map Prod.fst).Nodup := by
  induction names generalizing tree with
  | nil => exact h
  | cons name names ih => exact ih (distinct_erase h)

end Tree

theorem exists_plain_or_slashes (cs : List Char) :
    (∃ c ∈ cs, c ≠ '/') ∨ ∃ n, cs = List.replicate n '/' := by
  by_cases hplain : ∃ c ∈ cs, c ≠ '/'
  · exact .inl hplain
  · refine .inr ⟨cs.length, List.eq_replicate_of_mem fun c hc => ?_⟩
    by_contra hne
    exact hplain ⟨c, hc, hne⟩

end Files

namespace Cleanup

open Files (File Listed Location Named Tree)

section Paths

variable {tree : Tree} {home place : Location} {directory name : String}

/-- The path of an entry is the directory's, then one slash, then the name. -/
theorem toList_joined (directory name : String) : ∃ before,
    (joined directory name).toList = before ++ '/' :: name.toList ∧
    (directory.toList = before ++ ['/'] ∨
      (directory.toList = before ∧ before.getLast? ≠ some '/')) := by
  rw [joined]
  split
  · next hslash =>
    have hsplit := List.dropLast_append_getLast? '/' hslash
    refine ⟨directory.toList.dropLast, ?_, .inl hsplit.symm⟩
    rw [String.toList_append, ← hsplit, List.append_assoc, List.singleton_append, hsplit]
  · next hslash =>
    refine ⟨directory.toList, ?_, .inr ⟨rfl, hslash⟩⟩
    rw [String.toList_append, String.toList_append, List.append_assoc]
    rfl

theorem joined_injective (directory : String) : Function.Injective (joined directory) := by
  intro name other hsame
  rw [joined, joined] at hsame
  split at hsame
  · exact (String.append_right_inj _).mp hsame
  · exact (String.append_right_inj _).mp hsame

theorem namesOf_joined (hempty : name ≠ "") (hslash : '/' ∉ name.toList) :
    Files.namesOf (joined directory name) = Files.namesOf directory ++ [name] := by
  have plain : ∀ c ∈ name.toList, c ≠ '/' := fun c hc heq => hslash (heq ▸ hc)
  have some : name.toList ≠ [] := fun hnil => hempty (String.toList_eq_nil_iff.mp hnil)
  obtain ⟨before, hjoined, hdirectory⟩ := toList_joined directory name
  have words : Files.wordsOf directory.toList = Files.wordsOf before := by
    rcases hdirectory with hends | ⟨rfl, -⟩
    · rw [hends]
      exact Files.wordsOf_slashes before 1
    · rfl
  rw [Files.namesOf_eq, Files.namesOf_eq, hjoined, Files.wordsOf_append,
    Files.wordsOf_word plain some, List.map_append, words, List.map_singleton, String.ofList_toList]

theorem anchorOf_joined (hdirectory : directory ≠ "") (hempty : name ≠ "")
    (hslash : '/' ∉ name.toList) :
    Files.anchorOf (joined directory name).toList = Files.anchorOf directory.toList := by
  obtain ⟨c, rest, hchars⟩ :=
    List.exists_cons_of_ne_nil fun hnil => hempty (String.toList_eq_nil_iff.mp hnil)
  have plain : c ≠ '/' := by
    rintro rfl
    exact hslash (hchars ▸ List.mem_cons_self)
  obtain ⟨before, hjoined, hbefore⟩ := toList_joined directory name
  rw [hjoined]
  rcases Files.exists_plain_or_slashes before with hplain | ⟨n, rfl⟩
  · rw [Files.anchorOf_append hplain]
    rcases hbefore with hends | ⟨hsame, -⟩
    · rw [hends, Files.anchorOf_append hplain]
    · rw [hsame]
  · rcases hbefore with hends | ⟨hsame, hlast⟩
    · rw [hends, hchars, ← List.replicate_succ', ← Files.anchorOf_slashes plain rest,
        List.replicate_succ', List.append_assoc, List.singleton_append]
    · cases n with
      | zero => exact absurd (String.toList_eq_nil_iff.mp hsame) hdirectory
      | succ n =>
        rw [List.replicate_succ', List.getLast?_concat] at hlast
        exact absurd rfl hlast

theorem trail_joined (hdirectory : directory ≠ "") (hempty : name ≠ "")
    (hslash : '/' ∉ name.toList) :
    (Files.Trail.ofText (joined directory name)).anchor = Files.anchorOf directory.toList ∧
      (Files.Trail.ofText (joined directory name)).steps = Files.namesOf directory ++ [name] := by
  refine ⟨anchorOf_joined hdirectory hempty hslash, ?_⟩
  have unslashed : (joined directory name).toList.getLast? ≠ some '/' := by
    obtain ⟨before, hjoined, -⟩ := toList_joined directory name
    intro hlast
    have some : name.toList ≠ [] := fun hnil => hempty (String.toList_eq_nil_iff.mp hnil)
    rw [hjoined, List.getLast?_append_of_ne_nil _ (List.cons_ne_nil _ _),
      ← List.singleton_append, List.getLast?_append_of_ne_nil _ some] at hlast
    exact hslash (List.mem_of_getLast? hlast)
  rw [Files.Trail.steps, Files.Trail.ofText]
  dsimp only
  rw [decide_eq_false unslashed, if_neg Bool.false_ne_true, List.append_nil,
    namesOf_joined hempty hslash]

theorem ownPlace_joined (hsound : Files.Sound tree) (hname : Named name)
    (hslash : '/' ∉ name.toList) (hhome : tree.place (.ofText directory) = .ok home)
    (hdirectory : tree.entry? home = some .directory)
    (hok : (tree.ownPlace (.ofText (joined directory name))).isOk = true) :
    tree.ownPlace (.ofText (joined directory name)) = .ok (home ++ [name]) := by
  obtain ⟨hsize, -, n, -, hway⟩ := Tree.walkTrail_ok_iff.mp hhome
  have some : directory ≠ "" := by
    rintro rfl
    exact hsize rfl
  obtain ⟨hanchor, hsteps⟩ := trail_joined some hname.not_empty hslash
  cases hown : tree.ownPlace (.ofText (joined directory name)) with
  | error fault =>
    rw [hown] at hok
    cases hok
  | ok own =>
    obtain ⟨-, -, m, -, hwalk⟩ := Tree.walkTrail_ok_iff.mp hown
    rw [hanchor, hsteps] at hwalk
    obtain ⟨_, _, mid, -, hfirst, hmid, hlast⟩ :=
      hwalk.split hsound (Tree.startFrom_directory hsound.working _) (List.cons_ne_nil _ _)
    have proper : Files.Proper name := ⟨hname.not_dot, hname.not_up⟩
    obtain ⟨-, -, rfl⟩ := (Files.Walks.step_iff proper fun _ _ => rfl).mp hlast
    -- a slash at the end of the directory's path is a step to itself
    have dotted : Files.Dotted (Files.namesOf directory) (Files.Trail.ofText directory).steps := by
      rw [Files.Trail.steps]
      split
      · have appended := Files.Dotted.append (.dot .nil) (Files.namesOf directory)
        rwa [List.append_nil] at appended
      · rw [List.append_nil]
        exact .refl _
    obtain ⟨-, rfl⟩ := (hfirst.dotted hmid dotted).deterministic hway
    rfl

end Paths

/-- A sweep of the directory can remove what stands at the place, under the path. -/
def Reaches (world : World) (directory path : String) (place : Location) : Prop :=
  Exposed world directory place ∧ place.getLast?.map (joined directory) = some path

variable {world : World} {settings : Settings} {now : Binary64} {directory path : String}
  {place : Location}

theorem reaches_entry {home : Location} {name : String} :
    Reaches world directory path (home ++ [name])
      ↔ Exposed world directory (home ++ [name]) ∧ path = joined directory name := by
  rw [Reaches, List.getLast?_concat, Option.map_some, Option.some_inj]
  exact and_congr_right' eq_comm

theorem Exposed.exists_path (h : Exposed world directory place) :
    ∃ path, Reaches world directory path place := by
  have hexposed := h
  obtain ⟨home, name, rfl, -⟩ := h
  exact ⟨_, reaches_entry.mpr ⟨hexposed, rfl⟩⟩

theorem reaches_iff {files : Tree} (hsame : world.files.SameWays files) :
    Reaches { world with files := files } directory path place
      ↔ Reaches world directory path place :=
  and_congr_left' (exposed_iff hsame)

theorem Reaches.ownPlace (h : Reaches world directory path place) (hlisted : Listed world.files)
    (hstale : StaleAt world settings now place) :
    world.files.ownPlace (.ofText path) = .ok place := by
  have hreaches := h
  obtain ⟨⟨home, name, rfl, hhome, hdirectory, -, hremovable⟩, -⟩ := h
  obtain ⟨file, hfile, -⟩ := hstale
  obtain ⟨hname, hslash⟩ := hlisted.named _ (by rw [hfile]; rfl) name
    (List.mem_append_right _ List.mem_cons_self)
  rw [isRemovable, Bool.and_eq_true, Bool.and_eq_true] at hremovable
  rw [(reaches_entry.mp hreaches).2]
  exact ownPlace_joined hlisted.sound hname hslash hhome hdirectory hremovable.1.1

section Directory

variable (world settings now directory)

theorem mem_sweepDirectory : path ∈ (sweepDirectory world settings now directory).2 ↔
    ∃ place, StaleAt world settings now place ∧ Reaches world directory path place := by
  rw [sweepDirectory]
  cases hhome : world.files.place (.ofText directory) with
  | error fault =>
    refine iff_of_false List.not_mem_nil ?_
    rintro ⟨place, -, ⟨home, name, -, hplace, -⟩, -⟩
    rw [hhome] at hplace
    cases hplace
  | ok home =>
    dsimp only
    split
    · next hclosed =>
      refine iff_of_false List.not_mem_nil ?_
      rintro ⟨place, -, ⟨other, name, -, hplace, hdirectory, hlistable, -⟩, -⟩
      obtain rfl := Except.ok.inj (hhome.symm.trans hplace)
      simp [hdirectory, hlistable] at hclosed
    · next hopen =>
      have hopen : world.files.entry? home = some .directory ∧
          isListable world directory = true := by simpa using hopen
      rw [List.mem_mergeSort, List.mem_map]
      constructor
      · rintro ⟨name, hname, rfl⟩
        obtain ⟨hstale, hremovable⟩ := mem_staleNames.mp hname
        exact ⟨_, hstale, reaches_entry.mpr
          ⟨⟨home, name, rfl, hhome, hopen.1, hopen.2, hremovable⟩, rfl⟩⟩
      · rintro ⟨place, hstale, hreaches⟩
        have hexposed := hreaches.1
        obtain ⟨other, name, rfl, hplace, -, -, hremovable⟩ := hexposed
        obtain rfl := Except.ok.inj (hhome.symm.trans hplace)
        exact ⟨name, mem_staleNames.mpr ⟨hstale, hremovable⟩, (reaches_entry.mp hreaches).2.symm⟩

variable {world}

theorem nodup_sweepDirectory (h : (world.files.entries.map Prod.fst).Nodup) :
    (sweepDirectory world settings now directory).2.Nodup := by
  rw [sweepDirectory]
  split
  · exact List.nodup_nil
  · split
    · exact List.nodup_nil
    · refine (List.mergeSort_perm _ _).nodup_iff.mpr ?_
      exact ((Tree.nodup_namesIn h).filter _).map (joined_injective directory)

theorem distinct_sweepDirectory (h : (world.files.entries.map Prod.fst).Nodup) :
    ((sweepDirectory world settings now directory).1.files.entries.map Prod.fst).Nodup := by
  rw [sweepDirectory]
  split
  · exact h
  · split
    · exact h
    · exact Tree.distinct_without h

theorem sweepDirectory_idle
    (h : ∀ place, StaleAt world settings now place → ¬ Exposed world directory place) :
    sweepDirectory world settings now directory = (world, []) := by
  rw [sweepDirectory]
  split
  · rfl
  · next home hhome =>
    split
    · rfl
    · next hopen =>
      have hopen : world.files.entry? home = some .directory ∧
          isListable world directory = true := by simpa using hopen
      have none : staleNames world settings now directory home = [] := by
        refine List.eq_nil_iff_forall_not_mem.mpr fun name hname => ?_
        obtain ⟨hstale, hremovable⟩ := mem_staleNames.mp hname
        exact h _ hstale ⟨home, name, rfl, hhome, hopen.1, hopen.2, hremovable⟩
      simp only [none, List.foldl_nil, List.map_nil, List.mergeSort_nil]

end Directory

theorem StaleAt.mono {before after : Binary64} (h : Binary64.le before after = true)
    (hstale : StaleAt world settings before place) : StaleAt world settings after place := by
  obtain ⟨file, hfile, hold⟩ := hstale
  exact ⟨file, hfile, isStale_mono h hold⟩

/-- What is still stale after the sweep of a directory was not exposed to it. -/
theorem staleAt_sweepDirectory :
    StaleAt (sweepDirectory world settings now directory).1 settings now place ↔
      StaleAt world settings now place ∧ ¬ Exposed world directory place := by
  obtain ⟨hgone, hstays⟩ := entry_sweepDirectory world settings now directory place
  by_cases htaken : StaleAt world settings now place ∧ Exposed world directory place
  · refine iff_of_false ?_ fun hspared => hspared.2 htaken.2
    rintro ⟨file, hfile, -⟩
    exact nomatch (hgone htaken).symm.trans hfile
  · rw [StaleAt, hstays htaken, ← StaleAt]
    exact ⟨fun hstale => ⟨hstale, fun hexposed => htaken ⟨hstale, hexposed⟩⟩, And.left⟩

section Both

variable (world settings now)

/-- What the output directory has left is reported after what the input directory had. -/
theorem removed_eq : (sweep world settings now).2
    = (sweepDirectory world settings now settings.inputDirectory).2
      ++ (sweepDirectory (sweepDirectory world settings now settings.inputDirectory).1 settings now
        settings.outputDirectory).2 := rfl

/-- In whatever way the two directories share files, a file is taken where it is met first. -/
theorem mem_sweep : path ∈ (sweep world settings now).2 ↔ ∃ place,
    StaleAt world settings now place ∧ (Reaches world settings.inputDirectory path place ∨
      (¬ Exposed world settings.inputDirectory place ∧
        Reaches world settings.outputDirectory path place)) := by
  obtain ⟨files, hfiles⟩ := sweepDirectory_world world settings now settings.inputDirectory
  have hsame := sweepDirectory_sameWays world settings now settings.inputDirectory
  rw [hfiles] at hsame
  have later : ∀ place, Reaches (sweepDirectory world settings now settings.inputDirectory).1
      settings.outputDirectory path place ↔ Reaches world settings.outputDirectory path place := by
    intro place
    rw [hfiles]
    exact reaches_iff hsame
  simp only [removed_eq, List.mem_append, mem_sweepDirectory, later, staleAt_sweepDirectory,
    and_or_left, exists_or, and_assoc]

variable {world}

/-- A path that is reported leads to what is taken, which is gone before the next path is met. -/
theorem nodup_sweep (h : Listed world.files) : (sweep world settings now).2.Nodup := by
  obtain ⟨files, hfiles⟩ := sweepDirectory_world world settings now settings.inputDirectory
  have hsame := sweepDirectory_sameWays world settings now settings.inputDirectory
  rw [hfiles] at hsame
  rw [removed_eq, List.nodup_append]
  refine ⟨nodup_sweepDirectory settings now _ h.distinct,
    nodup_sweepDirectory settings now _ (distinct_sweepDirectory settings now _ h.distinct), ?_⟩
  rintro path hfirst _ hsecond rfl
  rw [mem_sweepDirectory] at hfirst hsecond
  obtain ⟨place, hstale, hreaches⟩ := hfirst
  obtain ⟨other, hagain, hreaches'⟩ := hsecond
  rw [staleAt_sweepDirectory] at hagain
  rw [hfiles, reaches_iff hsame] at hreaches'
  obtain rfl := Except.ok.inj
    ((hreaches.ownPlace h hstale).symm.trans (hreaches'.ownPlace h hagain.1))
  exact hagain.2 hreaches.1

theorem takes_iff_reported (h : Listed world.files) : Takes world settings now place ↔
    ∃ path ∈ (sweep world settings now).2, world.files.ownPlace (.ofText path) = .ok place := by
  constructor
  · rintro ⟨hstale, hexposed⟩
    by_cases hinput : Exposed world settings.inputDirectory place
    · obtain ⟨path, hreaches⟩ := hinput.exists_path
      exact ⟨path, (mem_sweep _ _ _).mpr ⟨place, hstale, .inl hreaches⟩,
        hreaches.ownPlace h hstale⟩
    · obtain ⟨path, hreaches⟩ := (hexposed.resolve_left hinput).exists_path
      exact ⟨path, (mem_sweep _ _ _).mpr ⟨place, hstale, .inr ⟨hinput, hreaches⟩⟩,
        hreaches.ownPlace h hstale⟩
  · rintro ⟨path, hpath, hplace⟩
    obtain ⟨other, hstale, hreaches | ⟨-, hreaches⟩⟩ := (mem_sweep _ _ _).mp hpath
    · obtain rfl := Except.ok.inj (hplace.symm.trans (hreaches.ownPlace h hstale))
      exact ⟨hstale, .inl hreaches.1⟩
    · obtain rfl := Except.ok.inj (hplace.symm.trans (hreaches.ownPlace h hstale))
      exact ⟨hstale, .inr hreaches.1⟩

variable (world)

theorem sweep_again : sweep (sweep world settings now).1 settings now
    = ((sweep world settings now).1, []) := by
  have hsame := sweep_sameWays world settings now
  obtain ⟨files, hfiles⟩ := sweep_world world settings now
  have spared : ∀ directory, directory = settings.inputDirectory ∨
      directory = settings.outputDirectory → ∀ place,
      StaleAt (sweep world settings now).1 settings now place →
      ¬ Exposed (sweep world settings now).1 directory place := by
    intro directory hdirectory place hstale hexposed
    obtain ⟨hgone, hstays⟩ := entry_sweep world settings now place
    obtain ⟨file, hfile, hold⟩ := hstale
    by_cases htaken : Takes world settings now place
    · exact nomatch (hgone htaken).symm.trans hfile
    · rw [hfiles] at hexposed hsame
      rw [exposed_iff hsame] at hexposed
      refine htaken ⟨⟨file, (hstays htaken).symm.trans hfile, hold⟩, ?_⟩
      rcases hdirectory with rfl | rfl
      · exact .inl hexposed
      · exact .inr hexposed
  have first := sweepDirectory_idle settings now _ (spared _ (.inl rfl))
  have second := sweepDirectory_idle settings now _ (spared _ (.inr rfl))
  rw [sweep]
  simp only [first, second, List.append_nil]

theorem sweep_subset {after : Binary64} (h : Binary64.le now after = true) :
    (sweep world settings now).2 ⊆ (sweep world settings after).2 := by
  intro path hpath
  obtain ⟨place, hstale, hreaches⟩ := (mem_sweep _ _ _).mp hpath
  exact (mem_sweep _ _ _).mpr ⟨place, hstale.mono h, hreaches⟩

end Both

/-- What a sweep does to a world and what it reports. -/
structure Swept (world : World) (settings : Settings) (now : Binary64) (later : World)
    (removed : List String) : Prop where
  nodup : removed.Nodup
  reported : ∀ path, path ∈ removed ↔ ∃ place, StaleAt world settings now place ∧
    (Reaches world settings.inputDirectory path place ∨
      (¬ Exposed world settings.inputDirectory place ∧
        Reaches world settings.outputDirectory path place))
  /-- The paths lead to the places that are taken. -/
  led : ∀ place, Takes world settings now place ↔
    ∃ path ∈ removed, world.files.ownPlace (.ofText path) = .ok place
  gone : ∀ place, Takes world settings now place → later.files.entry? place = none
  kept : ∀ place, ¬ Takes world settings now place →
    later.files.entry? place = world.files.entry? place
  others : ∃ files, later = { world with files := files }
  workingDirectory : later.files.workingDirectory = world.files.workingDirectory

/-- A sweep removes the stale files that it can remove and nothing else, and reports just these.
Then nothing is left to remove. A later sweep would have removed all of them. -/
theorem sweep_swept (hlisted : Listed world.files) :
    Swept world settings now (sweep world settings now).1 (sweep world settings now).2 ∧
    sweep (sweep world settings now).1 settings now = ((sweep world settings now).1, []) ∧
    ∀ after, Binary64.le now after = true →
      (sweep world settings now).2 ⊆ (sweep world settings after).2 where
  left :=
    { nodup := nodup_sweep settings now hlisted
      reported := fun _ => mem_sweep world settings now
      led := fun _ => takes_iff_reported settings now hlisted
      gone := fun place => (entry_sweep world settings now place).1
      kept := fun place => (entry_sweep world settings now place).2
      others := sweep_world world settings now
      workingDirectory := (sweep_sameWays world settings now).workingDirectory }
  right := ⟨sweep_again world settings now, fun _ => sweep_subset world settings now⟩

namespace Sample

def sharedSettings : Settings :=
  { Settings.defaults with
    inputDirectory := "/in"
    outputDirectory := "/in/"
    fileMaxAge := 60 }

/-- Two old files, of which one cannot be removed, and a link. -/
def shared : World where
  files := ⟨[(["in"], .directory), (["in", "a.mp4"], .file ⟨[], 0, false⟩),
    (["in", "b.mp4"], .file ⟨[], 0, false⟩), (["in", "c.mp4"], .link "a.mp4")], []⟩
  epoch := 61000
  now := 0
  tokensDrawn := 0
  programDirectory := ""
  scripts := []
  otherScript := ⟨0, none, none, none, 0, [], 0, false, 0, -15, 0, false⟩
  spawned := 0
  spawns := []
  signals := []
  refusals := .byName [] ["b.mp4"]

theorem shared_listed : Listed shared.files :=
  .of_entries (.of_entries (by decide) (by decide)) (by decide) (by decide)

end Sample

/-- The file goes, and the second name of its directory leads to nothing more. -/
theorem sweep_swept_shared : Listed Sample.shared.files ∧
    Tree.entry? (sweep Sample.shared Sample.sharedSettings Sample.shared.time).1.files
      ["in", "a.mp4"] = none ∧
    ∃ path ∈ (sweep Sample.shared Sample.sharedSettings Sample.shared.time).2,
      Sample.shared.files.ownPlace (.ofText path) = .ok ["in", "a.mp4"] := by
  obtain ⟨swept, -⟩ :=
    @sweep_swept Sample.shared Sample.sharedSettings Sample.shared.time Sample.shared_listed
  have taken : Takes Sample.shared Sample.sharedSettings Sample.shared.time ["in", "a.mp4"] :=
    ⟨⟨⟨[], 0, false⟩, by decide, by decide +kernel⟩,
      .inl ⟨["in"], "a.mp4", rfl, by decide +kernel, by decide, by decide, by decide +kernel⟩⟩
  exact ⟨Sample.shared_listed, swept.gone _ taken, (swept.led _).mp taken⟩

end Cleanup

end ClipRender
