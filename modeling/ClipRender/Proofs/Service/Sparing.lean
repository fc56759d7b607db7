import ClipRender.Proofs.Rendering.Run
import ClipRender.Proofs.Service.Passing
import ClipRender.Proofs.SourceContainment

set_option autoImplicit false

/-!
What sweeps do to the source of a render. They go by the age of the file alone: one that is not yet
too old when the render ends has not been taken by any sweep before, and one that is too old goes
even while the render waits or runs.
-/

namespace ClipRender

namespace Rendering.Scene

variable {s : Scene} {order : Order} {world : World} {job : Job}

theorem makeJob_source {source : String} (h : s.makeJob order source = (world, .ok job)) :
    job.source = source := by
  rw [makeJob] at h
  split at h
  split at h
  · simp at h
  · split at h
    · simp at h
    · rw [← Except.ok.inj (Prod.mk.inj h).2]

theorem createJob_source {path : Files.Path} (h : s.createJob order = (world, .ok job))
    (hpath : Source.resolve s.world.files (.ofText s.pool.settings.inputDirectory) order.reference =
      .ok path) : job.source = path.text := by
  rw [createJob, hpath] at h
  exact makeJob_source h

end Rendering.Scene

namespace Service

open Cleanup (Takes isStale)
open Files (File Location Path)

variable {s t start : State} {number : Nat} {sweeper : Sweeper} {path : Path} {place : Location}
  {file : File}

/-- A sweep goes by the age of the file that a path leads to, whatever renders there are. -/
structure SweepsByAge (s : State) (number : Nat) (settings : Settings) (path : Path)
    (place : Location) (file : File) : Prop where
  /-- A file that is not stale at some later time stays. -/
  fresh : ∀ t, Reaches (s.take (.sweep number)) t → isStale settings t.world.time file = false →
    (s.take (.sweep number)).world.files.file? path = .ok (some file)
  spared : ¬ Takes s.world settings s.world.time place →
    (s.take (.sweep number)).world.files.file? path = .ok (some file)
  taken : Takes s.world settings s.world.time place →
    (s.take (.sweep number)).world.files.file? path = .ok none
  regardless : ∀ pools : List Rendering.Pool,
    ({ s with pools := pools }.take (.sweep number)).world = (s.take (.sweep number)).world

namespace State

theorem take_sweep_world (hsweeper : s.sweeper? number = some sweeper)
    (hgoes : sweeper.failure = none) : (s.take (.sweep number)).world =
      (Cleanup.sweep s.world sweeper.settings s.world.time).1 := by
  rw [take, forSweeper, hsweeper]
  simp only [hgoes, Option.isSome_none, Bool.false_eq_true, if_false]
  rw [pause_world]
  generalize s.world.time = now
  rfl

end State

/-- What is stale when a sweep comes is so ever after. -/
theorem stale_later {settings : Settings} (hstale : isStale settings s.world.time file = true)
    (h : Reaches (s.take (.sweep number)) t) : isStale settings t.world.time file = true := by
  have hswept : Later s (s.take (.sweep number)) := .of_clock (State.take_clock s (.sweep number))
  have hlater : Later s t := hswept.trans (Reaches.later h)
  exact Cleanup.isStale_mono hlater.time hstale

theorem sweepsByAge (hsweeper : s.sweeper? number = some sweeper) (hgoes : sweeper.failure = none)
    (hplace : s.world.files.place path = .ok place)
    (hfile : s.world.files.entry? place = some (.file file)) :
    SweepsByAge s number sweeper.settings path place file := by
  have hworld := State.take_sweep_world hsweeper hgoes
  obtain ⟨htaken, hspared⟩ :=
    @Cleanup.sweep_file? s.world sweeper.settings s.world.time place file path hplace hfile
  rw [← hworld] at htaken hspared
  refine ⟨fun t ht hfresh => hspared ?_, hspared, htaken, fun pools => ?_⟩
  · rintro ⟨⟨other, hother, hstale⟩, -⟩
    obtain rfl : file = other := by simpa using hfile.symm.trans hother
    rw [stale_later hstale ht] at hfresh
    exact nomatch hfresh
  · have hpools : State.sweeper? { s with pools := pools } number = some sweeper := hsweeper
    rw [hworld, State.take_sweep_world hpools hgoes]

/-- From the moment an order has its source, each sweep that finds it goes by its age: whichever
renders wait or run, the sweep takes the source if it is stale and exposed, and only then. -/
theorem sources_swept_by_age {pool : Rendering.Pool} {order : Rendering.Order}
    {job : Rendering.Job} (hjob : ∃ world, Rendering.Scene.createJob ⟨pool, start.world, []⟩ order =
      (world, .ok job))
    (hpath : Source.resolve start.world.files (.ofText pool.settings.inputDirectory)
      order.reference = .ok path) :
    job.source = path.text ∧
    (∃ place file, start.world.files.place path = .ok place ∧
      start.world.files.entry? place = some (.file file)) ∧
    ∀ s, Reaches start s → ∀ number sweeper, s.sweeper? number = some sweeper →
      sweeper.failure = none → ∀ place file, s.world.files.place path = .ok place →
        s.world.files.entry? place = some (.file file) →
          SweepsByAge s number sweeper.settings path place file := by
  obtain ⟨world, hmade⟩ := hjob
  obtain ⟨-, -, -, -, file, hfile⟩ := Source.resolve_ok hpath
  obtain ⟨place, hplace, hentry⟩ :=
    Files.Tree.status_ok_iff.mp (Files.Tree.file?_eq_some_iff.mp hfile)
  exact ⟨Rendering.Scene.createJob_source hmade hpath, ⟨place, file, hplace, hentry⟩,
    fun s _ number sweeper hsweeper hgoes place file => sweepsByAge hsweeper hgoes⟩

/-!
The sample world with a pool and a sweeper, and one render that has the slot while another waits.
-/

namespace Sample

open Rendering.Sample (engine order pool settings world)

def opened : State :=
  { State.start (world (engine false)) [] with
    pools := [pool]
    appPool := some 0
    appSweeper := some 1
    sweepers := [⟨1, settings, none, none⟩]
    ready := [.pause 1]
    numbers := 1 }

example : (State.start (world (engine false)) []).openPool settings = .ok opened := rfl

def busy : State :=
  (opened.take (.event 0 (.order 2 (order "a")))).take (.event 0 (.order 3 (order "b")))

theorem reaches_busy : Reaches opened busy :=
  (Relation.ReflTransGen.single (.turn _)).tail (.turn _)

def source : Path := .absolute ["in", "v.mp4"]

def video : File := ⟨[], 0, false⟩

theorem resolve_source : Source.resolve opened.world.files (.ofText pool.settings.inputDirectory)
    (order "a").reference = .ok source := rfl

def job : Rendering.Job :=
  ⟨"a", "/in/v.mp4", ⟨Binary64.zero, Binary64.one⟩, EditSpec.untouched, "clip_0_00000001.mp4"⟩

theorem createJob_opened : ∃ world, Rendering.Scene.createJob ⟨pool, opened.world, []⟩
    (order "a") = (world, .ok job) := by
  have made : (Rendering.Scene.createJob ⟨pool, opened.world, []⟩ (order "a")).2 = .ok job := by
    decide +kernel
  exact ⟨(Rendering.Scene.createJob ⟨pool, opened.world, []⟩ (order "a")).1, by rw [← made]⟩

theorem busy_sweepers : busy.sweepers = opened.sweepers := by
  rw [busy, State.take, State.tell_sweepers, State.take, State.tell_sweepers]

end Sample

theorem sources_swept_by_age_busy : Reaches Sample.opened Sample.busy ∧
    (Sample.busy.take (.sweep 1)).world.files.file? Sample.source = .ok (some Sample.video) := by
  have hplace : Sample.busy.world.files.place Sample.source = .ok ["in", "v.mp4"] := by
    decide +kernel
  have hfile : Sample.busy.world.files.entry? ["in", "v.mp4"] = some (.file Sample.video) := by
    decide +kernel
  have hsweeper : Sample.busy.sweeper? 1 = some ⟨1, Rendering.Sample.settings, none, none⟩ := by
    rw [State.sweeper?, Sample.busy_sweepers]
    rfl
  obtain ⟨-, -, hswept⟩ := sources_swept_by_age Sample.createJob_opened Sample.resolve_source
  have hage := hswept Sample.busy Sample.reaches_busy 1
    ⟨1, Rendering.Sample.settings, none, none⟩ hsweeper rfl ["in", "v.mp4"] Sample.video
    hplace hfile
  exact ⟨Sample.reaches_busy, hage.fresh _ .refl (by decide +kernel)⟩

namespace Sample

open Rendering.Sample (engine world)

/-- A service with one slot, a video that is two hours old and a sweep each second. -/
def idle : State :=
  State.start { world (engine false) with now := 7201000 }
    [("INPUT_DIRECTORY", "/in"), ("OUTPUT_DIRECTORY", "/out"), ("MAX_RENDER_WORKERS", "1"),
      ("CLEANUP_INTERVAL_SECONDS", "1")]

def moment : Json.Value :=
  .object [("startTime", .number Binary64.zero), ("endTime", .number Binary64.one)]

def exportOf (jobId : String) : Step :=
  .start jobId (some "v.mp4") moment (.object []) (some jobId) false

def serving : State := idle.following (.startup "up")

def exporting : State := (serving.following (exportOf "a")).following (exportOf "b")

def secondLater : State := exporting.following (.advance 1000)

theorem reaches_exporting : Reaches idle exporting :=
  ((Relation.ReflTransGen.single (.following idle (.startup "up") fun _ => nofun)).tail
    (.following serving (exportOf "a") fun _ => nofun)).tail
      (.following (serving.following (exportOf "a")) (exportOf "b") fun _ => nofun)

theorem reaches_secondLater : Reaches exporting secondLater :=
  .single (.following exporting (.advance 1000) fun _ => nofun)

/-- The sources of the renders that have not ended, with the number of free slots. -/
def sources (s : State) : List (Nat × List String) :=
  s.pools.map fun pool => (pool.free, pool.renders.map (·.job.source))

end Sample

open Sample in
/-- A sweep takes the source of two exports, of which one runs and one waits. -/
theorem source_swept_in_flight :
    Reaches idle exporting ∧ sources exporting = [(0, ["/in/v.mp4", "/in/v.mp4"])] ∧
      exporting.world.files.file? source = .ok (some video) ∧
    Reaches exporting secondLater ∧ sources secondLater = [(0, ["/in/v.mp4", "/in/v.mp4"])] ∧
      secondLater.world.files.file? source = .ok none := by
  have hbefore : sources exporting = [(0, ["/in/v.mp4", "/in/v.mp4"])] ∧
      exporting.world.files.file? source = .ok (some video) := by decide +kernel
  have hafter : sources secondLater = [(0, ["/in/v.mp4", "/in/v.mp4"])] ∧
      secondLater.world.files.file? source = .ok none := by decide +kernel
  exact ⟨reaches_exporting, hbefore.1, hbefore.2, reaches_secondLater, hafter⟩

end Service

end ClipRender
