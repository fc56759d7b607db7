import ClipRender.Proofs.Rendering.Ways

set_option autoImplicit false

/-!
The start of an engine, from the turn of a render that has its slot to the first look at its engine.
-/

namespace ClipRender.Rendering

theorem Stirs.setPhase {past : List Step} {s t : Scene} (h : Stirs past s t) (task : Nat)
    (phase : Phase) :
    Stirs past (s.onPool (·.setPhase task phase)) (t.onPool (·.setPhase task phase)) where
  pool := by
    simp only [Scene.onPool, Pool.setPhase]
    rw [h.pool]
  files := h.files
  spawned := h.spawned
  pids := h.pids
  running := h.running
  lookouts := by
    intro l hl
    obtain ⟨k, hk, follows⟩ := h.lookouts l hl
    exact ⟨k, hk, follows.elsewhere rfl rfl id⟩
  kept := h.kept
  listening := h.listening.elsewhere rfl rfl rfl

namespace Scene

open Pool

variable {past : List Step} {gives : Nat → Prop} {concludes : Render → Scene → Prop} {s : Scene}
  {r : Render}

theorem stopOwn_setPhase (s : Scene) (r : Render) (phase : Phase) (pid : Nat)
    (reason : StopReason) :
    (s.onPool (·.setPhase r.task phase)).stopOwn r pid reason = s.stopOwn r pid reason := by
  rw [stopOwn, stopOwn]
  simp only [onPool]
  rw [setPhase_setPhase]

theorem watch_setPhase (s : Scene) (r : Render) (phase : Phase) (pid : Nat) :
    (s.onPool (·.setPhase r.task phase)).watch r pid = s.watch r pid := by
  have again : ∀ t : Scene, (t.onPool (·.setPhase r.task phase)).onPool
      (·.setPhase r.task (.watching pid (s.pool.numbers + 1)))
        = t.onPool (·.setPhase r.task (.watching pid (s.pool.numbers + 1))) := by
    intro t
    simp only [onPool]
    rw [setPhase_setPhase]
  rw [watch, watch]
  by_cases hbudget : Binary64.le s.pool.settings.renderTimeout Binary64.zero = true
  · simp only [onPool, setPhase, hbudget, if_true]
    exact again (s.sendLookoutInVain (.render r.task) pid true).2
  · simp only [onPool, setPhase, hbudget]
    exact again (s.sendLookout (.render r.task) pid true s.pool.settings.renderTimeout).2

theorem spawned_writeOutput (world : World) (part : Files.Path) (output : Option Engine.Output) :
    (writeOutput world part output).spawned = world.spawned := by
  cases output with
  | none => rfl
  | some output => cases output <;> rfl

theorem files_addProcess (s : Scene) (r : Render) (script : Engine.Script) :
    (s.addProcess r script).2.world.files = (writeOutput s.world r.part script.output).files := by
  rw [addProcess]
  cases script.output with
  | none => rfl
  | some output => cases output <;> rfl

theorem attend_goes {pid : Nat}
    (h : InOrder past s.world.spawned (s.pool.setPhase r.task .stopping))
    (hr : { r with phase := .stopping } ∈ (s.pool.setPhase r.task .stopping).renders)
    (hactive : (r.job.id, pid) ∈ s.pool.active) :
    Goes past (s.onPool (·.setPhase r.task .stopping)) (s.attend r pid) := by
  have order : InOrder past (s.onPool (·.setPhase r.task .stopping)).world.spawned
    (s.onPool (·.setPhase r.task .stopping)).pool := h
  rw [attend]
  split
  · rw [← stopOwn_setPhase s r .stopping]
    exact stopOwn_goes order hr rfl hactive
  · rw [← watch_setPhase s r .stopping]
    exact watch_goes (r := { r with phase := .stopping }) hr rfl hactive

variable (h : InOrder past s.world.spawned s.pool) (hr : r ∈ s.pool.renders)

include h hr

/-- An engine starts. Between its start and the first look at it the render stands as one that stops
its engine, so that it has one. -/
theorem started_goes {script : Engine.Script} (hphase : r.phase = .spawning script)
    (hfault : script.startFault = none) : Goes past s (s.started r script) := by
  rw [started, hfault]
  change Goes past s
    (((s.addProcess r script).2.scheduleExit (s.world.spawned + 1) script).attend r _)
  have spawned : Advances past s ((s.addProcess r script).2.onPool (·.setPhase r.task .stopping)) :=
    .spawns hr ⟨script, hphase⟩ (files_addProcess s r script) rfl
      (spawned_writeOutput _ r.part script.output)
  have listening : (s.addProcess r script).2.pool.Listening :=
    (h.advances spawned).links.listening.elsewhere rfl rfl rfl
  have exits : Stirs past (s.addProcess r script).2
      ((s.addProcess r script).2.scheduleExit (s.world.spawned + 1) script) :=
    .scheduleExit listening _ script
  have seen := exits.setPhase r.task .stopping
  have went := (Relation.ReflTransGen.single spawned).trans (Goes.stirs seen)
  refine went.trans (attend_goes (h.goes went) ?_ ?_)
  · have moved := mem_alter_of_mem hr fun r => { r with phase := .stopping }
    exact seen.renders.symm ▸ moved
  · rw [exits.active]
    exact List.mem_cons_self

theorem started_closes {script : Engine.Script} (hphase : r.phase = .spawning script) :
    Closes past gives concludes s (s.started r script) := by
  cases hfault : script.startFault with
  | none => exact .goes (started_goes h hr hphase hfault)
  | some fault =>
    rw [started, hfault]
    exact failHolding_idle h hr (by simp [Render.holdsSlot, hphase])
      (by simp [Render.hasEngine, hphase]) (.reported _) (.cannotStart hphase hfault)

variable (past) in
omit h in
/-- A render whose turn it is draws its engine, and starts it now or later. -/
theorem begin_draws (hphase : r.phase = .granted) (hflag : r.job.id ∉ s.pool.flagged) :
    ∃ t : Scene, ∃ now, ∃ script, script = s.world.takeScript.1 ∧ Goes past s t ∧
      t.world.files = s.world.files ∧ t.world.spawned = s.world.spawned ∧
      t.pool = (markStarted s.pool r.task now script).setStatus r.task .running ∧
      { r with phase := .spawning script, started := now } ∈ t.pool.renders ∧
      s.begin r = if script.startDelay = 0 then
          t.started { r with phase := .spawning script, started := now } script
        else t.postAfter script.startDelay (.startDue r.task) := by
  have world : s.world.takeScript.2.files = s.world.files ∧
      s.world.takeScript.2.spawned = s.world.spawned := by
    rw [World.takeScript]
    split <;> exact ⟨rfl, rfl⟩
  have unmarked : s.pool.flagged.contains r.job.id = false := by
    simpa using hflag
  refine ⟨{ s with world := s.world.takeScript.2 }.onPool fun p =>
      (markStarted p r.task s.world.takeScript.2.now s.world.takeScript.1).setStatus r.task
        .running, s.world.takeScript.2.now, s.world.takeScript.1, rfl, ?_, world.1, world.2, rfl,
    mem_alter_of_mem hr fun r =>
      { r with phase := .spawning s.world.takeScript.1, started := s.world.takeScript.2.now }, ?_⟩
  · exact .single (.moves (.begun hr hphase hflag _ _) world.1 world.2)
  · rw [begin, unmarked]
    rfl

theorem begin_goes (hphase : r.phase = .granted) (hflag : r.job.id ∉ s.pool.flagged)
    (hstarts : s.world.takeScript.1.startDelay = 0 → s.world.takeScript.1.startFault = none) :
    Goes past s (s.begin r) := by
  obtain ⟨t, now, script, hscript, drawn, _, _, _, hmem, hbegin⟩ := begin_draws past hr hphase hflag
  rw [hbegin]
  split
  · next hnow =>
    exact drawn.trans (started_goes (h.goes drawn) hmem rfl (hscript ▸ hstarts (hscript ▸ hnow)))
  · exact drawn.trans (Goes.stirs (.ask (h.goes drawn).links.listening _))

theorem begin_closes (hphase : r.phase = .granted) : Closes past gives concludes s (s.begin r) := by
  by_cases hflag : r.job.id ∈ s.pool.flagged
  · rw [begin, contains_iff.mpr hflag]
    exact failHolding_idle h hr (by simp [Render.holdsSlot, hphase])
      (by simp [Render.hasEngine, hphase]) (.reported _) (.cancelledInQueue hphase hflag)
  · obtain ⟨t, now, script, _, drawn, hfiles, hspawned, _, hmem, hbegin⟩ :=
      begin_draws past hr hphase hflag
    rw [hbegin]
    split
    · exact .after drawn hfiles hspawned (started_closes (h.goes drawn) hmem rfl)
    · exact .goes (drawn.trans (Goes.stirs (.ask (h.goes drawn).links.listening _)))

end Scene

end ClipRender.Rendering
