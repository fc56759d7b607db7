import ClipRender.Proofs.Rendering.Leaving

set_option autoImplicit false

/-!
What a render comes to whose engine has ended by itself.
-/

namespace ClipRender.Rendering

/-- The clip of a render tells of the entry at its output, and where it can be fetched. -/
structure Export.Tells (clip : Export) (settings : Settings) (r : Render) (entry : Files.Entry) :
    Prop where
  jobId : clip.jobId = r.job.id
  outputName : clip.outputName = r.job.outputName
  outputPath : clip.outputPath = r.output.text
  accessUrl : clip.accessUrl = Rendering.accessUrl settings.publicBaseUrl r.job.outputName
  size : ∀ file, entry = .file file → clip.sizeInBytes = file.content.length

/-- What follows from the mark of the job, the code of the engine and the output that it leaves. -/
inductive Concluded (s : Scene) (r : Render) (process : Engine.Process) (t : Scene) :
    Outcome → Prop
  | cancelled (hflag : r.job.id ∈ s.pool.flagged)
    (hfiles : t.world.files = (Scene.discardPart s.world r.part).files) :
    Concluded s r process t (.failed (.reported .cancelledByCaller))
  | exit (hflag : r.job.id ∉ s.pool.flagged) (hcode : process.exit.getD 0 ≠ 0)
    (hfiles : t.world.files = (Scene.discardPart s.world r.part).files) :
    Concluded s r process t (.failed (.reported
      (.engineExit (process.exit.getD 0) (Scene.reportText process.script.report))))
  | unpublished {failure : Failure} (hflag : r.job.id ∉ s.pool.flagged)
    (hcode : process.exit.getD 0 = 0) (hpublish : s.publish r = .error failure)
    (hfiles : t.world.files = (Scene.discardPart s.world r.part).files) :
    Concluded s r process t (.failed failure)
  | lost {files : Files.Tree} {fault : Files.Fault} (hflag : r.job.id ∉ s.pool.flagged)
    (hcode : process.exit.getD 0 = 0) (hpublish : s.publish r = .ok files)
    (hfiles : t.world.files = (Scene.discardPart { s.world with files := files } r.part).files)
    (hstatus : t.world.files.status r.output = .error fault) :
    Concluded s r process t (.failed (.file fault))
  | exported {files : Files.Tree} {entry : Files.Entry} {clip : Export}
    (hflag : r.job.id ∉ s.pool.flagged) (hcode : process.exit.getD 0 = 0)
    (hpublish : s.publish r = .ok files)
    (hfiles : t.world.files = (Scene.discardPart { s.world with files := files } r.part).files)
    (hstatus : t.world.files.status r.output = .ok entry) (hclip : clip.Tells s.pool.settings r entry) :
    Concluded s r process t (.exported clip)

namespace Scene

variable {s : Scene} {r : Render} {process : Engine.Process}

theorem finish_leaves {r : Render} {t : Scene} {f : Pool → Pool} {outcome : Outcome}
    (hholds : r.holdsSlot = true) (hflag : r.job.id ∉ s.pool.flagged)
    (hpool : f t.pool = { s.pool.released.withdrawn r with
      statuses := s.pool.settled r.task outcome })
    (hspawned : t.world.spawned = s.world.spawned) :
    Leaves s r outcome (t.onPool fun p => (f p).finish r.task outcome) := by
  refine ⟨?_, hspawned, .inr hflag⟩
  rw [hholds, if_pos rfl, ← ended_released]
  simp only [onPool, Pool.finish]
  rw [hpool]
  rfl

theorem succeed_concluded (hholds : r.holdsSlot = true) {files : Files.Tree}
    (hflag : r.job.id ∉ s.pool.flagged) (hcode : process.exit.getD 0 = 0)
    (hpublish : s.publish r = .ok files) :
    ∃ outcome,
      Concluded s r process ({ s with world := { s.world with files := files } }.succeed r) outcome ∧
      Leaves s r outcome ({ s with world := { s.world with files := files } }.succeed r) := by
  let u : Scene := { s with world := { s.world with files := files } }
  have hworld : (u.release.leave r).world = discardPart u.world r.part := by
    change discardPart u.release.world r.part = _
    rw [release_world]
  have hpool : (u.release.leave r).pool = s.pool.released.withdrawn r := by
    have released : u.release.pool = s.pool.released := release_pool u
    rw [← released]
    rfl
  have hspawned : (u.release.leave r).world.spawned = s.world.spawned := by
    rw [hworld, spawned_discardPart]
  have kept : (s.pool.released.withdrawn r).statuses = s.pool.statuses := statuses_released s.pool
  have settings : (u.release.leave r).pool.settings = s.pool.settings := by
    rw [hpool]
    exact settings_released s.pool
  rw [succeed]
  dsimp only
  split
  · next fault hstatus =>
    refine ⟨_, .lost hflag hcode hpublish ?_ hstatus, finish_leaves (f := id) hholds hflag ?_ hspawned⟩
    · exact congrArg World.files hworld
    · have unsettled : s.pool.settled r.task (.failed (.file fault)) = s.pool.statuses := rfl
      rw [id, hpool, unsettled, ← kept]
  · next entry hstatus =>
    refine ⟨_, .exported hflag hcode hpublish ?_ hstatus ⟨rfl, rfl, rfl, ?_, ?_⟩,
      finish_leaves (f := (·.setStatus r.task .succeeded)) hholds hflag ?_ hspawned⟩
    · exact congrArg World.files hworld
    · rw [settings]
    · rintro file rfl
      rfl
    · have settled : ∀ clip, s.pool.settled r.task (.exported clip)
          = (s.pool.setStatus r.task .succeeded).statuses := fun _ => rfl
      rw [hpool, settled]
      simp only [Pool.setStatus]
      rw [kept]

theorem conclude_concluded (s : Scene) (process : Engine.Process) (hholds : r.holdsSlot = true) :
    ∃ outcome, Concluded s r process (s.conclude r process) outcome ∧
      Leaves s r outcome (s.conclude r process) := by
  have discarded : ∀ failure, (s.failHolding r failure).world.files
      = (discardPart s.world r.part).files := by
    intro failure
    rw [failHolding, (fail_eq s.release r failure).2, release_world]
  rw [conclude]
  split
  · next hflag =>
    exact ⟨_, .cancelled (Pool.contains_iff.mp hflag) (discarded _), failHolding_leaves hholds _⟩
  · next hflag =>
    have unmarked : r.job.id ∉ s.pool.flagged := fun hmem => hflag (Pool.contains_iff.mpr hmem)
    split
    · next hcode => exact ⟨_, .exit unmarked hcode (discarded _), failHolding_leaves hholds _⟩
    · next hcode =>
      have succeeded : process.exit.getD 0 = 0 := by simpa using hcode
      split
      · next failure hpublish =>
        exact ⟨_, .unpublished unmarked succeeded hpublish (discarded _),
          failHolding_leaves hholds _⟩
      · next files hpublish => exact succeed_concluded hholds unmarked succeeded hpublish

theorem publish_error {r : Render} {error : ExportError}
    (h : s.publish r = .error (.reported error)) : error = .noOutput := by
  rw [publish] at h
  split at h
  · simp at h
  · exact (Failure.reported.inj (Except.error.inj h)).symm
  · cases hmoved : s.world.files.rename r.part r.output <;> simp [hmoved, Except.mapError] at h

end Scene

theorem Concluded.verdict {past : List Step} {s t : Scene} {r : Render} {process : Engine.Process}
    {outcome : Outcome} (h : Concluded s r process t outcome) (hengine : r.hasEngine = true) :
    Verdict past s.pool r outcome := by
  cases h with
  | cancelled hflag => exact .cancelledByCaller hengine hflag
  | exit hflag =>
    refine .concluded hengine hflag fun error herror => ?_
    obtain rfl := Failure.reported.inj (Outcome.failed.inj herror)
    exact .inr ⟨_, _, rfl⟩
  | unpublished hflag _ hpublish =>
    refine .concluded hengine hflag fun error herror => .inl ?_
    obtain rfl := Outcome.failed.inj herror
    exact Scene.publish_error hpublish
  | lost hflag => exact .concluded hengine hflag fun error herror => by simp at herror
  | exported hflag => exact .concluded hengine hflag fun error herror => by simp at herror

end ClipRender.Rendering
