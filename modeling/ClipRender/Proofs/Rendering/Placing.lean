import ClipRender.Proofs.Files.Housing
import ClipRender.Proofs.Rendering.Accounting

set_option autoImplicit false

/-!
The outputs of renders in their directory. No render has a finished output as long as it is in the
pool, and nothing stands under its hidden name before its engine starts.
-/

namespace ClipRender.Rendering

open Files

/-- The name under which an output is written until it is complete. -/
def partName (name : String) : String := "." ++ name ++ ".part"

def Job.output (job : Job) (settings : Settings) : Path :=
  (Path.ofText settings.outputDirectory).child job.outputName

def Job.part (job : Job) (settings : Settings) : Path :=
  (Path.ofText settings.outputDirectory).child (partName job.outputName)

/-- A name such as outputs get. -/
def IsClipName (name : String) : Prop := ∃ rest, name = "clip_" ++ rest

theorem partial?_child (dir : Path) (name : String) :
    (dir.child name).partial? = some (dir.child (partName name)) := by
  simp [Path.partial?, Path.name?, Path.child, partName]

section Names

variable {name other : String}

theorem partName_injective (h : partName name = partName other) : name = other := by
  have same := congrArg String.toList h
  simp only [partName, String.toList_append, List.append_assoc, List.append_cancel_left_eq,
    List.append_cancel_right_eq] at same
  exact String.toList_injective same

theorem proper_partName (name : String) : Proper (partName name) := by
  have long : 2 < (partName name).length := by
    simp only [partName, String.length_append]
    have : (".part" : String).length = 5 := rfl
    omega
  refine ⟨fun hdot => ?_, fun hup => ?_⟩
  · rw [hdot] at long
    exact absurd long (by decide)
  · rw [hup] at long
    exact absurd long (by decide)

theorem IsClipName.head (h : IsClipName name) : name.toList.head? = some 'c' := by
  obtain ⟨rest, rfl⟩ := h
  rw [String.toList_append]
  rfl

theorem IsClipName.proper (h : IsClipName name) : Proper name := by
  refine ⟨fun hdot => ?_, fun hup => ?_⟩
  · exact absurd (hdot ▸ h.head) (by decide)
  · exact absurd (hup ▸ h.head) (by decide)

theorem IsClipName.ne_partName (h : IsClipName name) : name ≠ partName other := by
  intro hsame
  have head := h.head
  simp [hsame, partName] at head

theorem isClipName_outputName {now : Binary64} {token : String} (h : outputName now token = .ok name) :
    IsClipName name := by
  obtain ⟨milliseconds, _, hname⟩ := bind_eq_ok h
  refine ⟨toString milliseconds ++ "_" ++ String.ofList (token.toList.take 8) ++ ".mp4", ?_⟩
  rw [← Except.ok.inj hname]
  simp only [String.append_assoc]

theorem Scene.createJob_named {s : Scene} {order : Order} {world : World} {job : Job}
    (h : s.createJob order = (world, .ok job)) :
    ∃ now count, outputName now (World.tokenText count) = .ok job.outputName := by
  rw [createJob] at h
  split at h
  · cases (Prod.mk.inj h).2
  · next path _ =>
    rw [makeJob] at h
    split at h
    next id later _ =>
    split at h
    · cases (Prod.mk.inj h).2
    · split at h
      · cases (Prod.mk.inj h).2
      · next name hname =>
        rw [← Except.ok.inj (Prod.mk.inj h).2]
        exact ⟨_, _, hname⟩

theorem Scene.isClipName_createJob {s : Scene} {order : Order} {world : World} {job : Job}
    (h : s.createJob order = (world, .ok job)) : IsClipName job.outputName := by
  obtain ⟨_, _, hname⟩ := createJob_named h
  exact isClipName_outputName hname

end Names

/-- A render with its two paths in the directory. -/
structure Placed (names : String → Prop) (dir : Path) (r : Render) : Prop where
  output : r.output = dir.child r.job.outputName
  part : r.part = dir.child (partName r.job.outputName)
  clip : IsClipName r.job.outputName
  named : names r.job.outputName ∧ names (partName r.job.outputName)

/-- The names of the paths of a render. -/
def Render.Owns (r : Render) (name : String) : Prop :=
  name = r.job.outputName ∨ name = partName r.job.outputName

/-- Nothing stands at the outputs of the renders, nor where no engine has started to write. -/
structure Tidy (names : String → Prop) (dir : Path) (tree : Tree) (renders : List Render) : Prop where
  placed : ∀ r ∈ renders, Placed names dir r
  distinct : ∀ r ∈ renders, ∀ q ∈ renders, r.job.outputName = q.job.outputName → r.task = q.task
  housed : renders ≠ [] → ∃ home, Housed names tree dir home
  outputs : ∀ r ∈ renders, tree.itself? r.output = none
  parts : ∀ r ∈ renders, r.hasEngine = false → tree.itself? r.part = none

/-- What a render leaves in the directory as it ends. -/
inductive Leftover (first : Tree) (r : Render) (last : Tree) : Outcome → Prop
  | nothing {failure : Failure} (houtput : last.itself? r.output = none)
    (hpart : ∀ file, last.file? r.part ≠ .ok (some file)) : Leftover first r last (.failed failure)
  | clip {clip : Export} {file : File} (hpart : first.file? r.part = .ok (some file))
    (houtput : last.file? r.output = .ok (some file))
    (hsize : clip.sizeInBytes = file.content.length)
    (hgone : ∀ file, last.file? r.part ≠ .ok (some file)) : Leftover first r last (.exported clip)

variable {names : String → Prop} {dir : Path} {tree later : Tree} {renders remaining : List Render}
  {past : List Step} {surplus : Nat} {s t : Scene} {r q : Render} {home : Location}

namespace Placed

theorem congr (h : Placed names dir r) (hsame : q.ordered = r.ordered) : Placed names dir q := by
  have job := Render.job_eq hsame
  refine ⟨?_, ?_, job ▸ h.clip, job ▸ h.named⟩
  · rw [Render.output_eq hsame, job]
    exact h.output
  · rw [Render.part_eq hsame, job]
    exact h.part

theorem owned (h : Placed names dir r) {name : String} (hname : r.Owns name) : names name := by
  rcases hname with rfl | rfl
  · exact h.named.1
  · exact h.named.2

/-- Two renders have no name in common if their outputs have not. -/
theorem apart (h : Placed names dir r) (k : Placed names dir q)
    (hne : q.job.outputName ≠ r.job.outputName) :
    ¬ r.Owns q.job.outputName ∧ ¬ r.Owns (partName q.job.outputName) := by
  refine ⟨?_, ?_⟩
  · rintro (hsame | hsame)
    · exact hne hsame
    · exact k.clip.ne_partName hsame
  · rintro (hsame | hsame)
    · exact h.clip.ne_partName hsame.symm
    · exact hne (partName_injective hsame)

end Placed

namespace Scene

/-- A discarded part is no file any more, and nothing else changes. -/
theorem discardPart_agrees {world : World} (h : Housed names world.files dir home) {name : String}
    (hname : Proper name) (hnamed : names name) :
    world.files.Agrees (· = name) home (discardPart world (dir.child name)).files ∧
      ∀ file, (discardPart world (dir.child name)).files.file? (dir.child name) ≠ .ok (some file) := by
  rw [discardPart]
  split
  · split
    · next files hremove =>
      obtain ⟨rfl, hroomy⟩ := h.remove_eq hname hremove
      have agrees := world.files.agrees_erase home name
      refine ⟨agrees, Tree.file?_ne_some ?_⟩
      rw [(h.agrees (agrees.mono fun _ hsame => hsame ▸ hnamed)).itself?_eq hname hroomy,
        Tree.entry?_erase, if_pos rfl]
    · next fault hremove =>
      refine ⟨.refl _ _ _, fun file hfile => ?_⟩
      obtain ⟨files, hremoved⟩ := h.remove_file hname hfile
      cases hremove.symm.trans hremoved
  · next hnowhere =>
    refine ⟨.refl _ _ _, fun file hfile => hnowhere ?_⟩
    exact Tree.leadsSomewhere_iff.mpr ⟨_, Tree.file?_eq_some_iff.mp hfile⟩

theorem discardPart_nothing (world : World) {part : Path} (h : world.files.itself? part = none) :
    discardPart world part = world := by
  rw [discardPart, if_neg]
  intro hleads
  obtain ⟨entry, hstatus⟩ := Tree.leadsSomewhere_iff.mp hleads
  have := Tree.itself?_isSome hstatus
  simp [h] at this

theorem writeOutput_agrees {world : World} (h : Housed names world.files dir home) {name : String}
    (hname : Proper name) (hfree : world.files.itself? (dir.child name) = none)
    (output : Option Engine.Output) :
    world.files.Agrees (· = name) home (writeOutput world (dir.child name) output).files := by
  have attempts : ∀ {made : Except Fault Tree} {entry : Entry},
      (∀ files, made = .ok files → files = world.files.put (home ++ [name]) entry) →
      world.files.Agrees (· = name) home (Change.attempt world.files made) := by
    intro made entry hmade
    cases made with
    | error fault => exact .refl _ _ _
    | ok files =>
      rw [Change.attempt, hmade files rfl]
      exact world.files.agrees_put home name entry
  cases output with
  | none => exact .refl _ _ _
  | some written =>
    cases written with
    | directory => exact attempts fun files hmake => h.makeDirectory_eq hname hmake
    | file content => exact attempts fun files hwrite => h.write_free hname hfree hwrite

end Scene

theorem Scene.publish_ok {files : Tree} (h : s.publish r = .ok files) :
    ∃ file, s.world.files.file? r.part = .ok (some file) ∧
      s.world.files.rename r.part r.output = .ok files := by
  rw [publish] at h
  split at h
  · contradiction
  · contradiction
  next file hfile =>
  refine ⟨file, hfile, ?_⟩
  cases hrename : s.world.files.rename r.part r.output with
  | error fault => simp [hrename, Except.mapError] at h
  | ok moved =>
    rw [hrename] at h
    exact congrArg Except.ok (Except.ok.inj h)

section Endings

variable {outcome : Outcome} {process : Engine.Process}

theorem Placed.discarded {world : World} (h : Placed names dir r)
    (housed : Housed names world.files dir home) (hfree : world.files.itself? r.output = none)
    (hlater : later = (Scene.discardPart world r.part).files) (failure : Failure) :
    world.files.Agrees r.Owns home later ∧ Leftover world.files r later (.failed failure) := by
  subst hlater
  rw [h.part]
  obtain ⟨agrees, hgone⟩ :=
    Scene.discardPart_agrees housed (proper_partName r.job.outputName) h.named.2
  refine ⟨agrees.mono fun _ => .inr, .nothing ?_ (by rwa [h.part])⟩
  rw [h.output] at hfree ⊢
  rw [← hfree]
  exact housed.itself?_congr h.clip.proper (agrees.mono fun _ hsame => hsame ▸ h.named.2)
    (agrees.other h.clip.ne_partName)

theorem Fails.leftover (h : Fails s r outcome t) (hplaced : Placed names dir r)
    (housed : Housed names s.world.files dir home) (hfree : s.world.files.itself? r.output = none) :
    s.world.files.Agrees r.Owns home t.world.files ∧
      Leftover s.world.files r t.world.files outcome := by
  obtain ⟨failure, _, rfl⟩ := h.planned
  exact hplaced.discarded housed hfree h.files failure

theorem Placed.moved {files : Tree} (h : Placed names dir r)
    (housed : Housed names s.world.files dir home) (hfree : s.world.files.itself? r.output = none)
    (hpublish : s.publish r = .ok files) :
    s.world.files.Agrees r.Owns home files ∧ files.itself? r.part = none ∧
      ∃ file, s.world.files.file? r.part = .ok (some file) ∧
        files.status r.output = .ok (.file file) := by
  obtain ⟨file, hfile, moved⟩ := Scene.publish_ok hpublish
  have proper := proper_partName r.job.outputName
  rw [h.part] at hfile moved
  rw [h.output] at hfree moved
  obtain ⟨hroomy, hspace, _⟩ := housed.rename_eq proper h.clip.proper moved
  rw [housed.itself?_eq h.clip.proper hspace] at hfree
  obtain ⟨hfound, hgone, agrees⟩ := housed.renamed proper h.clip.proper
    h.clip.ne_partName.symm h.named.symm (Tree.file?_eq_some_iff.mp hfile) hfree moved
  have later := housed.agrees (agrees.mono fun _ howned => h.owned howned.symm)
  refine ⟨agrees.mono fun _ => Or.symm, ?_, file, ?_, ?_⟩
  · rw [h.part, later.itself?_eq proper hroomy, hgone]
  · rwa [h.part]
  · rwa [h.output]

theorem Concluded.leftover (h : Concluded s r process t outcome) (hplaced : Placed names dir r)
    (housed : Housed names s.world.files dir home) (hfree : s.world.files.itself? r.output = none) :
    s.world.files.Agrees r.Owns home t.world.files ∧
      Leftover s.world.files r t.world.files outcome := by
  have finds : ∀ {files : Tree}, s.publish r = .ok files →
      t.world.files = (Scene.discardPart { s.world with files := files } r.part).files →
      t.world.files = files ∧ s.world.files.Agrees r.Owns home files ∧
        files.itself? r.part = none ∧ ∃ file, s.world.files.file? r.part = .ok (some file) ∧
          files.status r.output = .ok (.file file) := by
    intro files hpublish hfiles
    obtain ⟨agrees, hgone, hfound⟩ := hplaced.moved housed hfree hpublish
    rw [Scene.discardPart_nothing { s.world with files := files } hgone] at hfiles
    exact ⟨hfiles, agrees, hgone, hfound⟩
  cases h with
  | cancelled _ hfiles => exact hplaced.discarded housed hfree hfiles _
  | exit _ _ hfiles => exact hplaced.discarded housed hfree hfiles _
  | unpublished _ _ _ hfiles => exact hplaced.discarded housed hfree hfiles _
  | lost _ _ hpublish hfiles hstatus =>
    obtain ⟨hsame, _, _, file, _, hfound⟩ := finds hpublish hfiles
    rw [hsame] at hstatus
    exact nomatch hfound.symm.trans hstatus
  | exported _ _ hpublish hfiles hstatus hclip =>
    obtain ⟨hsame, agrees, hgone, file, hpart, hfound⟩ := finds hpublish hfiles
    rw [hsame] at hstatus ⊢
    obtain rfl := Except.ok.inj (hfound.symm.trans hstatus)
    exact ⟨agrees, .clip hpart (Tree.file?_eq_some_iff.mpr hfound) (hclip.size file rfl)
      (Tree.file?_ne_some hgone)⟩

theorem Concludes.agrees {event : Event} (h : Concludes s event r t) (hplaced : Placed names dir r)
    (housed : Housed names s.world.files dir home) (hfree : s.world.files.itself? r.output = none) :
    s.world.files.Agrees r.Owns home t.world.files := by
  cases h with
  | @intro l process hsees =>
    have holds : r.holdsSlot = true := by simp [Render.holdsSlot, hsees.phase]
    obtain ⟨outcome, hconcluded, _⟩ :=
      Scene.conclude_concluded (s.dismiss l) process holds
    exact (hconcluded.undismissed.leftover hplaced housed hfree).1

end Endings

/-- A new job finds its paths free once there is a directory for them, and the way there does not
lead through the names of outputs. -/
structure Scene.Receives (s : Scene) (names : String → Prop) (job : Job) : Prop where
  named : names job.outputName ∧ names (partName job.outputName)
  fresh : s.world.files.itself? (job.output s.pool.settings) = none
  output : (s.world.files.ensureDirectories s.outputDirectory.text).1.itself?
    (job.output s.pool.settings) = none
  part : (s.world.files.ensureDirectories s.outputDirectory.text).1.itself?
    (job.part s.pool.settings) = none
  housed : ∀ files, s.world.files.ensureDirectories s.outputDirectory.text = (files, none) →
    ∃ home, Housed names files s.outputDirectory home

theorem Admits.paths {order : Order} {files : Tree} (h : Admits s order r files) :
    r.output = r.job.output s.pool.settings ∧ r.part = r.job.part s.pool.settings := by
  refine ⟨h.output, ?_⟩
  rw [h.part, h.output, partial?_child]
  rfl

theorem Admits.placed {order : Order} {files : Tree} (h : Admits s order r files)
    (hnamed : names r.job.outputName ∧ names (partName r.job.outputName)) :
    Placed names s.outputDirectory r := by
  obtain ⟨_, hjob⟩ := h.job
  exact ⟨h.paths.1, h.paths.2, Scene.isClipName_createJob hjob, hnamed⟩

theorem Refuses.files_unmade {task : Nat} {order : Order} {failure error : Failure} {world : World}
    (h : Refuses s task order t failure) (hjob : s.createJob order = (world, .error error)) :
    t.world.files = s.world.files := by
  cases h with
  | unmade _ _ hfiles => exact hfiles
  | homeless hmade => exact nomatch (Prod.mk.inj (hjob.symm.trans hmade)).2
  | dropped hadmits =>
    obtain ⟨_, hmade⟩ := hadmits.job
    exact nomatch (Prod.mk.inj (hjob.symm.trans hmade)).2

/-- Who is refused although there is a job has made the directory at most. -/
theorem Refuses.files_made {task : Nat} {order : Order} {failure : Failure} {world : World}
    {job : Job} (h : Refuses s task order t failure) (hjob : s.createJob order = (world, .ok job))
    (hreceives : s.Receives names job) :
    t.world.files = (s.world.files.ensureDirectories s.outputDirectory.text).1 := by
  cases h with
  | unmade hnone => exact nomatch (Prod.mk.inj (hjob.symm.trans hnone)).2
  | homeless _ hfault => rw [hfault]
  | @dropped r files _ hadmits _ _ _ hfiles =>
    obtain ⟨other, hagain⟩ := hadmits.job
    have same : job = r.job := Except.ok.inj (Prod.mk.inj (hjob.symm.trans hagain)).2
    have free := hreceives.part
    rw [same, ← hadmits.paths.2, hadmits.directory] at free
    have nothing : ({ s.world with files := files } : World).files.itself? r.part = none := free
    rw [hfiles, hadmits.directory, Scene.discardPart_nothing _ nothing]

namespace Tidy

theorem nobody (names : String → Prop) (dir : Path) (tree : Tree) : Tidy names dir tree [] :=
  ⟨by simp, by simp, by simp, by simp, by simp⟩

/-- Some names change what stands under them, and all renders that go on have others. -/
theorem changed (h : Tidy names dir tree renders) (own : String → Prop)
    (hown : ∀ name, own name → names name)
    (hagrees : ∀ home, Housed names tree dir home → tree.Agrees own home later)
    (hremaining : ∀ x ∈ remaining, ∃ q ∈ renders, q.ordered = x.ordered ∧
      ¬ own q.job.outputName ∧
      (x.hasEngine = false → q.hasEngine = false ∧ ¬ own (partName q.job.outputName))) :
    Tidy names dir later remaining := by
  have house : ∀ q ∈ renders, ∃ home, Housed names tree dir home :=
    fun q hq => h.housed (List.ne_nil_of_mem hq)
  refine ⟨fun x hx => ?_, fun x hx y hy hname => ?_, fun hne => ?_, fun x hx => ?_,
    fun x hx hidle => ?_⟩
  · obtain ⟨q, hq, hsame, _⟩ := hremaining x hx
    exact (h.placed q hq).congr hsame.symm
  · obtain ⟨q, hq, hqx, _⟩ := hremaining x hx
    obtain ⟨p, hp, hpy, _⟩ := hremaining y hy
    rw [← Render.job_eq hqx, ← Render.job_eq hpy] at hname
    rw [← Render.task_eq hqx, ← Render.task_eq hpy]
    exact h.distinct q hq p hp hname
  · obtain ⟨x, hx⟩ := List.exists_mem_of_ne_nil remaining hne
    obtain ⟨q, hq, _⟩ := hremaining x hx
    obtain ⟨home, housed⟩ := house q hq
    exact ⟨home, housed.agrees ((hagrees home housed).mono hown)⟩
  · obtain ⟨q, hq, hsame, hother, _⟩ := hremaining x hx
    obtain ⟨home, housed⟩ := house q hq
    have agrees := hagrees home housed
    have free := h.outputs q hq
    rw [← Render.output_eq hsame]
    rw [(h.placed q hq).output] at free ⊢
    rw [← free]
    exact housed.itself?_congr (h.placed q hq).clip.proper (agrees.mono hown) (agrees.other hother)
  · obtain ⟨q, hq, hsame, _, hparts⟩ := hremaining x hx
    obtain ⟨hwaits, hother⟩ := hparts hidle
    obtain ⟨home, housed⟩ := house q hq
    have agrees := hagrees home housed
    have free := h.parts q hq hwaits
    rw [← Render.part_eq hsame]
    rw [(h.placed q hq).part] at free ⊢
    rw [← free]
    exact housed.itself?_congr (proper_partName _) (agrees.mono hown) (agrees.other hother)

theorem goesOn (h : Tidy names dir tree renders)
    (hremaining : ∀ x ∈ remaining, ∃ q ∈ renders, q.ordered = x.ordered ∧
      (x.hasEngine = false → q.hasEngine = false)) : Tidy names dir tree remaining := by
  refine h.changed (fun _ => False) (fun _ => False.elim) (fun home _ => ⟨rfl, fun _ _ => rfl⟩)
    fun x hx => ?_
  obtain ⟨q, hq, hsame, hidle⟩ := hremaining x hx
  exact ⟨q, hq, hsame, id, fun hnone => ⟨hidle hnone, id⟩⟩

end Tidy

namespace Pool

variable {pool next : Pool}

theorem former_alter (htables : pool.Tables surplus) (hr : r ∈ pool.renders) {f : Render → Render}
    (hordered : (f r).ordered = r.ordered) (hidle : (f r).hasEngine = false → r.hasEngine = false)
    {x : Render} (hx : x ∈ (pool.alter r.task f).renders) :
    ∃ q ∈ pool.renders, q.ordered = x.ordered ∧ (x.hasEngine = false → q.hasEngine = false) := by
  rcases htables.mem_altered hr hx with rfl | ⟨hold, _⟩
  · exact ⟨r, hr, hordered.symm, hidle⟩
  · exact ⟨x, hold, rfl, id⟩

theorem Moves.former (h : Moves past pool next) (htables : pool.Tables surplus) {x : Render}
    (hx : x ∈ next.renders) :
    ∃ q ∈ pool.renders, q.ordered = x.ordered ∧ (x.hasEngine = false → q.hasEngine = false) := by
  cases h with
  | granted hr =>
    obtain ⟨hmem, hqueued⟩ := find?_queued hr
    refine former_alter htables hmem (f := fun r => { r with phase := .granted }) rfl (fun _ => ?_) hx
    simp [Render.hasEngine, hqueued]
  | begun hr hphase _ now script =>
    refine former_alter htables hr
      (f := fun r => { r with phase := .spawning script, started := now }) rfl (fun _ => ?_) hx
    simp [Render.hasEngine, hphase]
  | @watched _ l hr =>
    exact former_alter htables hr (f := fun r => { r with phase := .watching l.pid l.number }) rfl
      (by simp [Render.hasEngine]) hx
  | stopped hr =>
    exact former_alter htables hr (f := fun r => { r with phase := .stopping }) rfl
      (by simp [Render.hasEngine]) hx
  | shielded hr =>
    exact former_alter htables hr (f := fun r => { r with phase := .shielded }) rfl
      (by simp [Render.hasEngine]) hx
  | _ => exact ⟨x, hx, rfl, id⟩

end Pool

namespace Tidy

theorem advances (h : Tidy names dir s.world.files s.pool.renders) (htables : s.pool.Tables surplus)
    (hadvances : Advances past s t) : Tidy names dir t.world.files t.pool.renders := by
  cases hadvances with
  | stirs hstirs => rwa [hstirs.files, hstirs.renders]
  | moves hmoves hfiles =>
    rw [hfiles]
    exact h.goesOn fun x hx => hmoves.former htables hx
  | @spawns r script hr hphase hfiles hpool =>
    obtain ⟨_, hphase⟩ := hphase
    have idle : r.hasEngine = false := by simp [Render.hasEngine, hphase]
    have placed := h.placed r hr
    have free := h.parts r hr idle
    rw [hfiles]
    refine h.changed (· = partName r.job.outputName)
      (fun name hname => hname ▸ placed.named.2) (fun home housed => ?_) fun x hx => ?_
    · rw [placed.part] at free ⊢
      exact Scene.writeOutput_agrees housed (proper_partName _) free script.output
    · have alters : x ∈ (s.pool.alter r.task fun r => { r with phase := .stopping }).renders := by
        rw [hpool] at hx
        exact hx
      rcases Pool.mem_alter alters with ⟨q, hq, _, rfl⟩ | ⟨hold, hother⟩
      · exact ⟨q, hq, rfl, (h.placed q hq).clip.ne_partName, by simp [Render.hasEngine]⟩
      · refine ⟨x, hold, rfl, (h.placed x hold).clip.ne_partName,
          fun hidle => ⟨hidle, fun hname => ?_⟩⟩
        exact hother (h.distinct x hold r hr (partName_injective hname))

theorem goes (h : Tidy names dir s.world.files s.pool.renders)
    (order : InOrder past s.world.spawned s.pool) (hgoes : Goes past s t) :
    Tidy names dir t.world.files t.pool.renders := by
  induction hgoes with
  | refl => exact h
  | tail hgoes hadvances ih => exact ih.advances (order.goes hgoes).tables hadvances

/-- A render leaves, and what it changes in the directory is its own. -/
theorem leaves (h : Tidy names dir tree s.pool.renders) (htables : s.pool.Tables surplus)
    (hr : r ∈ s.pool.renders) {outcome : Outcome} (hleaves : Leaves s r outcome t)
    (hagrees : ∀ home, Housed names tree dir home → tree.Agrees r.Owns home later) :
    Tidy names dir later t.pool.renders := by
  have placed := h.placed r hr
  refine h.changed _ (fun name => placed.owned) hagrees fun x hx => ?_
  rw [hleaves.pool] at hx
  obtain ⟨hmem, hother⟩ := List.mem_filter.mp hx
  have former : ∃ q ∈ s.pool.renders, q.ordered = x.ordered ∧ q.hasEngine = x.hasEngine := by
    split at hmem
    · obtain ⟨q, hq, hsame, _, hengine⟩ := Pool.former_released htables hmem
      exact ⟨q, hq, hsame, hengine⟩
    · exact ⟨x, hmem, rfl, rfl⟩
  obtain ⟨q, hq, hsame, hengine⟩ := former
  have apart : q.job.outputName ≠ r.job.outputName := by
    intro hname
    refine of_decide_eq_true hother ?_
    rw [← Render.task_eq hsame]
    exact h.distinct q hq r hr hname
  obtain ⟨houtput, hpart⟩ := placed.apart (h.placed q hq) apart
  exact ⟨q, hq, hsame, houtput, fun hidle => ⟨hengine.trans hidle, hpart⟩⟩

theorem closes (h : Tidy names dir s.world.files s.pool.renders)
    (order : InOrder past s.world.spawned s.pool) {gives : Nat → Prop} {event : Event}
    (hcloses : Closes past gives (Concludes s event) s t) :
    Tidy names dir t.world.files t.pool.renders := by
  cases hcloses with
  | goes hgoes => exact h.goes order hgoes
  | answers hgoes _ _ hpool hworld =>
    rw [hpool, hworld]
    exact h.goes order hgoes
  | @ends before after _ r outcome hgoes hfiles _ hr _ hleaves _ hafter hworld hway =>
    have went := order.goes hgoes
    have kept := h.goes order hgoes
    rw [hfiles] at kept
    have placed := kept.placed r hr
    have free := kept.outputs r hr
    have agrees : ∀ home, Housed names s.world.files dir home →
        s.world.files.Agrees r.Owns home t.world.files := by
      intro home housed
      rcases hway with hfails | hconcludes
      · exact (hfails.leftover placed housed free).1
      · exact hconcludes.agrees placed housed free
    have left := kept.leaves went.tables hr hleaves agrees
    rw [hworld] at left
    exact left.goes (went.leaves hr hleaves) hafter

theorem made {text : String} (h : Tidy names (Path.ofText text) tree renders) (hsound : Sound tree) :
    Tidy names (Path.ofText text) (tree.ensureDirectories (Path.ofText text).text).1 renders := by
  by_cases hnobody : renders = []
  · rw [hnobody]
    exact nobody names _ _
  · obtain ⟨home, housed⟩ := h.housed hnobody
    rw [housed.enters.ensureDirectories_eq hsound]
    exact h

theorem join (h : Tidy names dir tree renders) (hplaced : Placed names dir r)
    (hothers : ∀ q ∈ renders, q.job.outputName ≠ r.job.outputName)
    (housed : ∃ home, Housed names tree dir home) (houtput : tree.itself? r.output = none)
    (hpart : tree.itself? r.part = none) : Tidy names dir tree (renders ++ [r]) := by
  have either : ∀ x ∈ renders ++ [r], x ∈ renders ∨ x = r := by
    intro x hx
    exact (List.mem_append.mp hx).imp_right List.mem_singleton.mp
  refine ⟨fun x hx => ?_, fun x hx y hy hname => ?_, fun _ => housed, fun x hx => ?_,
    fun x hx hidle => ?_⟩
  · rcases either x hx with hold | rfl
    · exact h.placed x hold
    · exact hplaced
  · rcases either x hx with hold | rfl <;> rcases either y hy with hother | rfl
    · exact h.distinct x hold y hother hname
    · exact absurd hname (hothers x hold)
    · exact absurd hname.symm (hothers y hother)
    · rfl
  · rcases either x hx with hold | rfl
    · exact h.outputs x hold
    · exact houtput
  · rcases either x hx with hold | rfl
    · exact h.parts x hold hidle
    · exact hpart

theorem flag {jobId : String} (h : Tidy names dir s.world.files s.pool.renders) :
    Tidy names dir (s.onPool (·.flag jobId)).world.files (s.onPool (·.flag jobId)).pool.renders := by
  rw [Scene.onPool, Pool.flag_eq]
  exact h

theorem joined (h : Tidy names s.outputDirectory s.world.files s.pool.renders)
    (hsound : Sound s.world.files) {order : Order} (hadmits : Admits s order r t.world.files)
    (hreceives : s.Receives names r.job)
    (hothers : ∀ q ∈ s.pool.renders, q.job.outputName ≠ r.job.outputName)
    (hjoined : t.pool.renders = s.pool.renders ++ [r]) :
    Tidy names s.outputDirectory t.world.files t.pool.renders := by
  have made : Tidy names s.outputDirectory
      (s.world.files.ensureDirectories s.outputDirectory.text).1 s.pool.renders := h.made hsound
  have output := hreceives.output
  have part := hreceives.part
  rw [hadmits.directory] at made output part
  rw [← hadmits.paths.1] at output
  rw [← hadmits.paths.2] at part
  rw [hjoined]
  exact made.join (hadmits.placed hreceives.named) hothers
    (hreceives.housed _ hadmits.directory) output part

theorem course (h : Tidy names s.outputDirectory s.world.files s.pool.renders)
    (order : InOrder past s.world.spawned s.pool) {event : Event} (hsound : Sound s.world.files)
    (hnew : ∀ task order world job, event = .order task order →
      s.createJob order = (world, .ok job) → s.Receives names job ∧
        ∀ q ∈ s.pool.renders, q.job.outputName ≠ job.outputName)
    (hcourse : Course past s event t) :
    Tidy names s.outputDirectory t.world.files t.pool.renders := by
  cases hcourse with
  | quiet _ hcloses => exact h.closes order hcloses
  | flags hjob hgoes => exact h.flag.goes (order.flag hjob) hgoes
  | answersAtOnce => exact h.flag
  | notFound => exact h
  | refused hpool _ _ hway =>
    rw [hpool]
    rcases hmade : s.createJob _ with ⟨world, job | job⟩
    · rw [hway.files_unmade hmade]
      exact h
    · rw [hway.files_made hmade (hnew _ _ world job rfl hmade).1]
      exact h.made hsound
  | @joins _ r free u _ _ _ _ hpool hadmits _ _ horder hgoes =>
    obtain ⟨world, hjob⟩ := hadmits.job
    obtain ⟨receives, others⟩ := hnew _ _ world _ rfl hjob
    have joined : u.pool.renders = s.pool.renders ++ [r] := by
      rw [hpool]
      rfl
    exact goes (h.joined hsound hadmits receives others joined) horder hgoes

end Tidy

end ClipRender.Rendering
