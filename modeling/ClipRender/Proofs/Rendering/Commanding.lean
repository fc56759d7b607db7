import ClipRender.Proofs.Binary64.Overflow
import ClipRender.Proofs.Pacing
import ClipRender.Proofs.Rendering.Accounting
import ClipRender.Proofs.Trimming

set_option autoImplicit false

/-!
Which jobs have a command. A moment that the trims leave nothing of and a speed that puts all frames
at one time are reported. What is left can be commanded as long as its times in milliseconds are
finite numbers; where they are not, a failure comes up that nobody plans for. A job without a
command passes through the pool without a trace.
-/

namespace ClipRender

open Binary64

namespace Rendering

namespace Job

def start (job : Job) : Binary64 := job.moment.startTime + job.spec.trimStart

def finish (job : Job) : Binary64 := job.moment.endTime + job.spec.trimEnd

def TrimmedAway (job : Job) : Prop := Binary64.le job.finish job.start = true

/-- The factor for the timestamps of the frames rounds to zero at six places. -/
def Frozen (job : Job) : Prop :=
  job.spec.speed.value ≠ 1 ∧ (one / job.spec.speed).isFinite = true ∧
    (one / job.spec.speed).value ≤ 1 / 2000000

def Uncompilable (job : Job) : Prop := job.TrimmedAway ∨ job.Frozen

/-- The times of the clip in milliseconds are finite numbers. -/
def Countable (job : Job) : Prop :=
  (job.start * ofNat 1000).isFinite = true ∧
    ((job.finish - job.start) * ofNat 1000).isFinite = true

end Job

section Commands

variable (settings : Settings) {job : Job} (output : String)

theorem range_of_trimmedAway (h : job.TrimmedAway) : TimeRange.ofMoment job.moment job.spec
    = .error (.emptyRange job.moment job.spec.trimStart job.spec.trimEnd) :=
  TimeRange.ofMoment_empty h

theorem range_of_not_trimmedAway (h : ¬ job.TrimmedAway) :
    TimeRange.ofMoment job.moment job.spec = .ok ⟨job.start, job.finish - job.start⟩ :=
  TimeRange.ofMoment_some (Bool.not_eq_true _ ▸ h)

section Speed

variable (hspec : job.spec.WellFormed)

include hspec

theorem speed_eq_one_iff : Binary64.eq job.spec.speed one = true ↔ job.spec.speed.value = 1 := by
  rw [eq_iff hspec.speed.1 isFinite_one, value_one]

theorem graph_of_frozen (fontFile : Option String) (h : job.Frozen) :
    Filter.Graph.ofSpec fontFile job.spec
      = .error (.reported (.speedTooHigh job.spec.speed)) := by
  obtain ⟨hone, hrounded⟩ := h
  have frozen := (Filter.SpeedChange.frozen_iff hspec.speed.1 hspec.speed.2).mpr hrounded
  rw [Filter.Graph.ofSpec_eq, Filter.SpeedChange.ofSpeed_eq hspec.speed.1 hspec.speed.2,
    if_neg hone, if_pos frozen]
  rfl

theorem graph_of_not_frozen (fontFile : Option String) (h : ¬ job.Frozen) :
    ∃ graph, Filter.Graph.ofSpec fontFile job.spec = .ok graph := by
  rw [Filter.Graph.ofSpec_eq, Filter.SpeedChange.ofSpeed_eq hspec.speed.1 hspec.speed.2]
  by_cases hone : job.spec.speed.value = 1
  · rw [if_pos hone]
    exact ⟨_, rfl⟩
  · have moves : (one / job.spec.speed).roundedPlaces? 6 ≠ some 0 := by
      rw [ne_eq, Filter.SpeedChange.frozen_iff hspec.speed.1 hspec.speed.2]
      exact fun hrounded => h ⟨hone, hrounded⟩
    rw [if_neg hone, if_neg moves]
    exact ⟨_, rfl⟩

end Speed

variable (hmoment : job.moment.WellFormed) (hspec : job.spec.WellFormed)

include hmoment hspec

theorem range_inside (h : ¬ job.TrimmedAway) :
    TimeRange.Inside job.moment job.finish ⟨job.start, job.finish - job.start⟩ :=
  TimeRange.inside hmoment hspec (Bool.not_eq_true _ ▸ h)

theorem range_nonneg (h : ¬ job.TrimmedAway) :
    (job.start.isFinite = true ∧ 0 ≤ job.start.value) ∧
      (job.finish - job.start).isFinite = true ∧ 0 ≤ (job.finish - job.start).value := by
  have hinside := range_inside hmoment hspec h
  have hnonneg := hmoment.startTime.2.trans hinside.start_le
  exact ⟨⟨hinside.finite.1, hnonneg⟩, hinside.finite.2.1, hinside.duration_pos.le⟩

omit hmoment in
theorem command_of_uncompilable (h : job.Uncompilable) :
    ∃ error, command settings job output = .error (.reported error) ∧
      error.kind = .invalidEditSpec := by
  by_cases htrim : job.TrimmedAway
  · rw [command, range_of_trimmedAway htrim]
    exact ⟨_, rfl, rfl⟩
  · rw [command, range_of_not_trimmedAway htrim,
      graph_of_frozen hspec settings.fontFile (h.resolve_left htrim)]
    exact ⟨_, rfl, rfl⟩

theorem command_of_countable (h : ¬ job.Uncompilable) (hcount : job.Countable) :
    ∃ arguments, command settings job output = .ok arguments := by
  obtain ⟨htrim, hmoves⟩ := not_or.mp h
  obtain ⟨⟨hstart, hnonneg⟩, hlength, hpos⟩ := range_nonneg hmoment hspec htrim
  obtain ⟨graph, hgraph⟩ := graph_of_not_frozen hspec settings.fontFile hmoves
  obtain ⟨seek, hseek⟩ := Timestamp.format_ok hstart hnonneg hcount.1
  obtain ⟨duration, hduration⟩ := Timestamp.format_ok hlength hpos hcount.2
  rw [command, range_of_not_trimmedAway htrim, hgraph]
  simp only [TimeRange.seek, TimeRange.duration, Except.mapError, bind, Except.bind]
  rw [hseek, hduration]
  exact ⟨_, rfl⟩

theorem command_of_not_countable (h : ¬ job.Uncompilable) (hcount : ¬ job.Countable) :
    command settings job output = .error (.noWhole .infinity) := by
  obtain ⟨htrim, hmoves⟩ := not_or.mp h
  obtain ⟨⟨hstart, hnonneg⟩, hlength, hpos⟩ := range_nonneg hmoment hspec htrim
  obtain ⟨graph, hgraph⟩ := graph_of_not_frozen hspec settings.fontFile hmoves
  rw [command, range_of_not_trimmedAway htrim, hgraph]
  simp only [TimeRange.seek, TimeRange.duration, Except.mapError, bind, Except.bind]
  cases hseek : (job.start * ofNat 1000).isFinite with
  | false =>
    rw [Timestamp.format_error hstart hnonneg hseek]
  | true =>
    obtain ⟨seek, hformat⟩ := Timestamp.format_ok hstart hnonneg hseek
    have hover : ((job.finish - job.start) * ofNat 1000).isFinite = false := by
      rw [← Bool.not_eq_true]
      exact fun hduration => hcount ⟨hseek, hduration⟩
    rw [hformat, Timestamp.format_error hlength hpos hover]

end Commands

/-- The step leaves the pool as it finds it but for the end of the task and what is noted of its
job. No engine is started, nobody is sent a signal, and nothing is asked of the clock. -/
structure Step.Fruitless (step : Step) (task : Nat) (failure : Failure) : Prop where
  pool : step.after.pool = { step.before with
    statuses := step.after.pool.statuses
    ended := [(task, .failed failure)] }
  world : ∃ drawn files,
    step.after.world = { step.world with tokensDrawn := drawn, files := files }
  postings : step.after.postings = []

namespace Scene

theorem world_discardPart (world : World) (part : Files.Path) :
    ∃ files, discardPart world part = { world with files := files } := by
  rw [discardPart]
  split
  · split <;> exact ⟨_, rfl⟩
  · exact ⟨_, rfl⟩

theorem postings_fail (s : Scene) (r : Render) (failure : Failure) :
    (s.fail r failure).postings = s.postings := by
  cases failure <;> rfl

theorem accept_uncommanded {s : Scene} (task : Nat) {order : Order} {r : Render}
    {files : Files.Tree} {failure : Failure} (hadmits : Admits s order r files)
    (hcommand : command s.pool.settings r.job r.part.text = .error failure) :
    ∃ t q, s.accept task order = fail t q failure ∧ q.task = task ∧ q.job = r.job ∧
      t.pool = { s.pool with
        statuses := s.pool.statuses ++ [(task, .pending)]
        inFlight := r.job.id :: s.pool.inFlight } ∧
      (∃ drawn, t.world = { s.world with tokensDrawn := drawn, files := files }) ∧
      t.postings = s.postings := by
  obtain ⟨world, hjob⟩ := hadmits.job
  obtain ⟨drawn, hdrawn⟩ := createJob_world s order
  obtain rfl : world = { s.world with tokensDrawn := drawn } := by rw [← hdrawn, hjob]
  have mkdir := hadmits.directory
  rw [hadmits.part, hadmits.output, outputDirectory] at hcommand
  rw [outputDirectory] at mkdir
  rw [accept, hjob]
  dsimp only [onPool]
  rw [mkdir]
  dsimp only [run, onPool]
  rw [hcommand]
  exact ⟨_, _, rfl, rfl, rfl, rfl, ⟨drawn, rfl⟩, rfl⟩

end Scene

theorem Run.uncommanded {settings : Settings} {past : List Step} {step : Step} {pool : Pool}
    {spawned : Nat} (h : Run settings (step :: past) pool spawned) {task : Nat} {order : Order}
    {r : Render} {files : Files.Tree} {failure : Failure} (hevent : step.event = .order task order)
    (hadmits : Admits step.found order r files)
    (hcommand : command settings r.job r.part.text = .error failure) :
    step.Fruitless task failure := by
  obtain ⟨found, _⟩ := h.course
  obtain ⟨_, hrun, hle, _, _, hfresh⟩ := h.last
  obtain ⟨strangers, _⟩ := unknown hrun.inOrder.1 hfresh task order hevent
  obtain ⟨world, hjob⟩ := hadmits.job
  have hid : r.job.id ∉ step.found.pool.inFlight := Scene.createJob_ok hjob
  have same : step.found.pool.settings = settings := hrun.inOrder.2
  rw [← same] at hcommand
  obtain ⟨t, q, haccept, htask, hsame, hpool, ⟨drawn, hworld⟩, hpostings⟩ :=
    Scene.accept_uncommanded task hadmits hcommand
  have after : step.after = t.fail q failure := by
    rw [step.after_eq, hevent]
    exact haccept
  obtain ⟨left, discarded⟩ := Scene.fail_eq t q failure
  have gone : t.pool.withdrawn q = { step.found.pool with statuses := t.pool.statuses } := by
    have foreign := Scene.withdrawn_foreign found (r := q) (hsame ▸ hid) (htask ▸ strangers)
    rw [← foreign, hpool]
    simp [Pool.withdrawn, hsame]
  have ended : t.pool.ended = [] := by
    rw [hpool]
    rfl
  refine ⟨?_, ?_, ?_⟩
  · rw [after, left, gone, ended, htask]
    rfl
  · obtain ⟨later, hfiles⟩ := Scene.world_discardPart t.world q.part
    rw [after, discarded, hfiles, hworld]
    exact ⟨drawn, later, rfl⟩
  · rw [after, Scene.postings_fail, hpostings]
    rfl

section Commanded

variable (settings : Settings) (job : Job) (hmoment : job.moment.WellFormed)
  (hspec : job.spec.WellFormed)

include hmoment hspec

end Commanded

namespace Sample

/-- A clip of one second from which the first second is to be cut. -/
def trimmed : Order :=
  { order "a" with spec := { EditSpec.untouched with trimStart := one } }

def trimmedStep : Step := ⟨pool, world (engine false), .order 1 trimmed⟩

def trimmedJob : Job := ⟨"a", "/in/v.mp4", trimmed.moment, trimmed.spec, "clip_0_00000001.mp4"⟩

def trimmedRender : Render :=
  let output := (Files.Path.ofText "/out").child trimmedJob.outputName
  ⟨1, trimmedJob, output, output.partial?.getD output, [], 0, .queued⟩

theorem trimmedStep_run : Run settings [trimmedStep] trimmedStep.after.pool
    trimmedStep.after.world.spawned :=
  .next trimmedStep (.start new_settings) rfl (Nat.le_refl 0) fun _ _ _ hnone =>
    absurd hnone List.not_mem_nil

theorem trimmedStep_admits :
    ∃ files, Admits trimmedStep.found trimmed trimmedRender files := by
  have made : (trimmedStep.found.createJob trimmed).2 = .ok trimmedJob := by decide +kernel
  have there : (trimmedStep.world.files.ensureDirectories
      trimmedStep.found.outputDirectory.text).2 = none := by
    decide
  refine ⟨_, ⟨(trimmedStep.found.createJob trimmed).1, ?_⟩, Prod.ext rfl there, rfl, rfl⟩
  change _ = (_, Except.ok trimmedJob)
  rw [← made]

theorem trimmed_moment : trimmed.moment.WellFormed := by
  have read : Moment.ofData trimmed.moment.toJson = .valid trimmed.moment :=
    Validation.Checked.eq_valid_of_value?_eq_some (by decide +kernel)
  exact Moment.wellFormed read

theorem trimmed_spec : trimmed.spec.WellFormed := by
  have read : EditSpec.ofData (.object [("trimStart", .number one)]) = .valid trimmed.spec :=
    Validation.Checked.eq_valid_of_value?_eq_some (by decide +kernel)
  exact EditSpec.wellFormed read

end Sample

/-- A job for which there is nothing to compile, and a moment that is too far off. -/
def Sample.remoteJob : Job := ⟨"a", "/in/v.mp4", Run.remote.moment, EditSpec.untouched, "clip.mp4"⟩

end Rendering

end ClipRender
