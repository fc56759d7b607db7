import ClipRender.Cleanup
import ClipRender.Proofs.Binary64.Rising
import ClipRender.Proofs.Files.Thinning

set_option autoImplicit false

/-!
What a sweep takes: the stale files that stand directly in a directory that is swept and can be
removed. Everything else stays, and a file that is stale now is so at any later time.
-/

namespace ClipRender.Cleanup

open Files (Entry File Location Tree)

/-- A sweep of the directory comes to the place and can remove what stands there. -/
def Exposed (world : World) (directory : String) (place : Location) : Prop :=
  ∃ home name, place = home ++ [name] ∧ world.files.place (.ofText directory) = .ok home ∧
    world.files.entry? home = some .directory ∧ isListable world directory = true ∧
    isRemovable world directory name = true

def StaleAt (world : World) (settings : Settings) (now : Binary64) (place : Location) : Prop :=
  ∃ file, world.files.entry? place = some (.file file) ∧ isStale settings now file = true

/-- What a sweep through both directories takes. -/
def Takes (world : World) (settings : Settings) (now : Binary64) (place : Location) : Prop :=
  StaleAt world settings now place ∧
    (Exposed world settings.inputDirectory place ∨ Exposed world settings.outputDirectory place)

variable {world later : World} {settings : Settings} {now : Binary64} {directory : String}
  {place home : Location} {file : File}

theorem mem_staleNames {name : String} : name ∈ staleNames world settings now directory home ↔
    StaleAt world settings now (home ++ [name]) ∧ isRemovable world directory name = true := by
  rw [staleNames, List.mem_filter]
  constructor
  · rintro ⟨-, htest⟩
    split at htest
    · next file hfile =>
      obtain ⟨hstale, hremovable⟩ := Bool.and_eq_true_iff.mp htest
      exact ⟨⟨file, hfile, hstale⟩, hremovable⟩
    · exact nomatch htest
  · rintro ⟨⟨file, hfile, hstale⟩, hremovable⟩
    refine ⟨Tree.mem_namesIn hfile, ?_⟩
    rw [hfile]
    exact Bool.and_eq_true_iff.mpr ⟨hstale, hremovable⟩

theorem sweepDirectory_world (world : World) (settings : Settings) (now : Binary64)
    (directory : String) : ∃ files, (sweepDirectory world settings now directory).1
      = { world with files := files } := by
  rw [sweepDirectory]
  split
  · exact ⟨world.files, rfl⟩
  · split
    · exact ⟨world.files, rfl⟩
    · exact ⟨_, rfl⟩

section Directory

variable (world settings now directory place)

theorem sweepDirectory_sameWays :
    world.files.SameWays (sweepDirectory world settings now directory).1.files := by
  rw [sweepDirectory]
  split
  · exact .refl _
  · split
    · exact .refl _
    · refine Tree.without_sameWays fun name hname => ?_
      obtain ⟨⟨file, hfile, -⟩, -⟩ := mem_staleNames.mp hname
      exact ⟨file, hfile⟩

theorem entry_sweepDirectory :
    (StaleAt world settings now place ∧ Exposed world directory place →
      Tree.entry? (sweepDirectory world settings now directory).1.files place = none) ∧
    (¬ (StaleAt world settings now place ∧ Exposed world directory place) →
      Tree.entry? (sweepDirectory world settings now directory).1.files place
        = world.files.entry? place) := by
  rw [sweepDirectory]
  cases hhome : world.files.place (.ofText directory) with
  | error fault =>
    refine ⟨?_, fun _ => rfl⟩
    rintro ⟨-, home, name, -, hplace, -⟩
    exact nomatch hplace.symm.trans hhome
  | ok home =>
    dsimp only
    split
    · next hclosed =>
      refine ⟨?_, fun _ => rfl⟩
      rintro ⟨-, other, name, -, hplace, hdirectory, hlistable, -⟩
      obtain rfl := Except.ok.inj (hhome.symm.trans hplace)
      simp [hdirectory, hlistable] at hclosed
    · next hopen =>
      have hopen : world.files.entry? home = some .directory ∧
          isListable world directory = true := by simpa using hopen
      change (_ → Tree.entry? (world.files.without home _) place = none) ∧
        (_ → Tree.entry? (world.files.without home _) place = _)
      rw [Tree.entry_without]
      constructor
      · rintro ⟨hstale, other, name, rfl, hplace, -, -, hremovable⟩
        obtain rfl := Except.ok.inj (hhome.symm.trans hplace)
        exact if_pos ⟨name, mem_staleNames.mpr ⟨hstale, hremovable⟩, rfl⟩
      · intro hspared
        refine if_neg ?_
        rintro ⟨name, hname, rfl⟩
        obtain ⟨hstale, hremovable⟩ := mem_staleNames.mp hname
        exact hspared ⟨hstale, home, name, rfl, hhome, hopen.1, hopen.2, hremovable⟩

end Directory

theorem exposed_iff {files : Tree} (hsame : world.files.SameWays files) :
    Exposed { world with files := files } directory place ↔ Exposed world directory place := by
  have hremovable : ∀ name, isRemovable { world with files := files } directory name
      = isRemovable world directory name := by
    intro name
    rw [isRemovable, isRemovable, hsame.ownPlace_isOk]
  refine exists_congr fun home => exists_congr fun name => and_congr_right fun _ => ?_
  rw [hremovable, hsame.directory_iff]
  exact and_congr_left' hsame.walkTrail_iff

section Both

variable (world settings now place)

theorem sweep_sameWays : world.files.SameWays (sweep world settings now).1.files :=
  (sweepDirectory_sameWays world settings now settings.inputDirectory).trans
    (sweepDirectory_sameWays _ settings now settings.outputDirectory)

theorem sweep_world : ∃ files, (sweep world settings now).1 = { world with files := files } := by
  obtain ⟨first, hfirst⟩ := sweepDirectory_world world settings now settings.inputDirectory
  obtain ⟨second, hsecond⟩ := sweepDirectory_world
    (sweepDirectory world settings now settings.inputDirectory).1 settings now
    settings.outputDirectory
  refine ⟨second, ?_⟩
  rw [hfirst] at hsecond
  rw [sweep]
  dsimp only
  rw [hfirst, hsecond]

/-- A sweep takes exactly what is stale and exposed. -/
theorem entry_sweep :
    (Takes world settings now place → Tree.entry? (sweep world settings now).1.files place = none) ∧
    (¬ Takes world settings now place →
      Tree.entry? (sweep world settings now).1.files place = world.files.entry? place) := by
  obtain ⟨hgone, hstays⟩ := entry_sweepDirectory world settings now settings.inputDirectory place
  have hsame := sweepDirectory_sameWays world settings now settings.inputDirectory
  obtain ⟨files, hfiles⟩ := sweepDirectory_world world settings now settings.inputDirectory
  rw [hfiles] at hgone hstays hsame
  obtain ⟨hgone', hstays'⟩ := entry_sweepDirectory { world with files := files } settings now
    settings.outputDirectory place
  rw [exposed_iff hsame] at hgone' hstays'
  have hsweep : (sweep world settings now).1 = (sweepDirectory { world with files := files } settings
      now settings.outputDirectory).1 := by
    rw [sweep, ← hfiles]
  rw [hsweep]
  by_cases hfirst : StaleAt world settings now place ∧ Exposed world settings.inputDirectory place
  · -- it is gone from the first directory, and the second sweep finds nothing there
    have hnone : files.entry? place = none := hgone hfirst
    refine ⟨fun _ => ?_, fun hspared => absurd ⟨hfirst.1, .inl hfirst.2⟩ hspared⟩
    rw [hstays' ?_]
    · exact hnone
    · rintro ⟨⟨file, hfile, -⟩, -⟩
      exact nomatch hnone.symm.trans hfile
  · have hkept : files.entry? place = world.files.entry? place := hstays hfirst
    have hstale : StaleAt { world with files := files } settings now place ↔
        StaleAt world settings now place := by
      rw [StaleAt, StaleAt, hkept]
    rw [hstale] at hgone' hstays'
    constructor
    · rintro ⟨hold, hinput | houtput⟩
      · exact absurd ⟨hold, hinput⟩ hfirst
      · exact hgone' ⟨hold, houtput⟩
    · intro hspared
      rw [hstays' fun htaken => hspared ⟨htaken.1, .inr htaken.2⟩]
      exact hkept

end Both

theorem sweep_file? {trail : Files.Trail} (hplace : world.files.place trail = .ok place)
    (hfile : world.files.entry? place = some (.file file)) :
    (Takes world settings now place → (sweep world settings now).1.files.file? trail = .ok none) ∧
    (¬ Takes world settings now place →
      (sweep world settings now).1.files.file? trail = .ok (some file)) := by
  obtain ⟨hgone, hstays⟩ := entry_sweep world settings now place
  have hsame := sweep_sameWays world settings now
  exact ⟨fun htaken => hsame.file?_gone hplace (hgone htaken),
    fun hspared => hsame.file?_stays hplace ((hstays hspared).trans hfile)⟩

theorem isStale_mono {before after : Binary64} (h : Binary64.le before after = true)
    (hstale : isStale settings before file = true) : isStale settings after file = true :=
  Binary64.exceeds_sub_mono h hstale

end ClipRender.Cleanup
