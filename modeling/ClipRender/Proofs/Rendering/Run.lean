import ClipRender.Rendering.Handle
import Mathlib.Data.List.Induction

set_option autoImplicit false

/-!
Runs of a pool. At any time any event may come, for anybody, in a world that has changed in any way
meanwhile; only process ids do not come back, and each call has a task of its own. So a run stands
for every order in which calls, engines, alarms and aborts can come.
-/

namespace ClipRender.Rendering

/-- An event, with the pool and the world as it finds them. -/
structure Step where
  before : Pool
  world : World
  event : Event

def Event.caller? : Event → Option Nat
  | .order task _ => some task
  | .cancel task _ => some task
  | _ => none

namespace Step

/-- What the event makes of the pool and the world. Only tasks that end now are told. -/
def after (step : Step) : Scene :=
  Scene.handle ⟨{ step.before with ended := [] }, step.world, []⟩ step.event

/-- Task `task` ends with the outcome. -/
def Ends (step : Step) (task : Nat) (outcome : Outcome) : Prop :=
  (task, outcome) ∈ step.after.pool.ended

end Step

/-- The steps that a pool has gone through, latest first, with the pool as they leave it and the
process ids that have been given away. -/
inductive Run (settings : Settings) : List Step → Pool → Nat → Prop
  | start {pool : Pool} : Pool.new settings = .ok pool → Run settings [] pool 0
  | next {past : List Step} {pool : Pool} {spawned : Nat} (step : Step) :
    Run settings past pool spawned → step.before = pool → spawned ≤ step.world.spawned →
    (∀ task ∈ step.event.caller?, ∀ earlier ∈ past, earlier.event.caller? ≠ some task) →
    Run settings (step :: past) step.after.pool step.after.world.spawned

def Aborted (past : List Step) (task : Nat) : Prop := ∃ step ∈ past, step.event = .abort task

def Ordered (past : List Step) (task : Nat) : Prop :=
  ∃ step ∈ past, ∃ order, step.event = .order task order

def Cancels (past : List Step) (task : Nat) (jobId : String) : Prop :=
  ∃ step ∈ past, step.event = .cancel task jobId

/-- The time budget of a render is used up: there is none, or the alarm that was set with the
lookout of the render has rung. -/
def Overdue (settings : Settings) (past : List Step) (task : Nat) : Prop :=
  Binary64.le settings.renderTimeout Binary64.zero = true ∨
    ∃ step ∈ past, ∃ l ∈ step.before.lookouts, l.owner = .render task ∧ step.event = .alarm l.number

section Later

variable {past : List Step} {task : Nat} (step : Step)

theorem Aborted.cons (h : Aborted past task) : Aborted (step :: past) task := by
  obtain ⟨earlier, hmem, hevent⟩ := h
  exact ⟨earlier, List.mem_cons_of_mem step hmem, hevent⟩

theorem Ordered.cons (h : Ordered past task) : Ordered (step :: past) task := by
  obtain ⟨earlier, hmem, hevent⟩ := h
  exact ⟨earlier, List.mem_cons_of_mem step hmem, hevent⟩

theorem Cancels.cons {jobId : String} (h : Cancels past task jobId) :
    Cancels (step :: past) task jobId := by
  obtain ⟨earlier, hmem, hevent⟩ := h
  exact ⟨earlier, List.mem_cons_of_mem step hmem, hevent⟩

theorem Overdue.cons {settings : Settings} (h : Overdue settings past task) :
    Overdue settings (step :: past) task := by
  rcases h with hbudget | ⟨earlier, hmem, hevent⟩
  · exact .inl hbudget
  · exact .inr ⟨earlier, List.mem_cons_of_mem step hmem, hevent⟩

end Later

/-- A run as far as it has been played in a world that only the pool changes. -/
structure Play where
  steps : List Step
  pool : Pool
  world : World

namespace Play

def next (play : Play) (event : Event) : Play :=
  let step : Step := ⟨play.pool, play.world, event⟩
  ⟨step :: play.steps, step.after.pool, step.after.world⟩

def ofEvents (pool : Pool) (world : World) (events : List Event) : Play :=
  events.foldl next ⟨[], pool, world⟩

theorem ofEvents_concat (pool : Pool) (world : World) (events : List Event) (event : Event) :
    ofEvents pool world (events ++ [event]) = (ofEvents pool world events).next event := by
  rw [ofEvents, List.foldl_append]
  rfl

theorem events_steps (pool : Pool) (world : World) (events : List Event) :
    (ofEvents pool world events).steps.map (·.event) = events.reverse := by
  induction events using List.reverseRecOn with
  | nil => rfl
  | append_singleton events event ih =>
    rw [ofEvents_concat, List.reverse_append]
    exact congrArg (event :: ·) ih

/-- A run can be played on, as long as each call has a task of its own. -/
theorem run {settings : Settings} {past : List Step} {pool : Pool} {world : World}
    (h : Run settings past pool world.spawned) (events : List Event)
    (hcallers : (((past.map (·.event)).reverse ++ events).filterMap Event.caller?).Nodup) :
    Run settings ((ofEvents pool world events).steps ++ past) (ofEvents pool world events).pool
      (ofEvents pool world events).world.spawned := by
  induction events using List.reverseRecOn with
  | nil => exact h
  | append_singleton events event ih =>
    rw [← List.append_assoc, List.filterMap_append, List.nodup_append] at hcallers
    obtain ⟨hearlier, _, hapart⟩ := hcallers
    rw [ofEvents_concat]
    refine .next ⟨_, _, event⟩ (ih hearlier) rfl (Nat.le_refl _) ?_
    intro task htask other hother hsame
    have hevent : other.event ∈ (past.map (·.event)).reverse ++ events := by
      rcases List.mem_append.mp hother with hnew | hold
      · refine List.mem_append_right _ ?_
        rw [← List.mem_reverse, ← events_steps pool world events]
        exact List.mem_map.mpr ⟨other, hnew, rfl⟩
      · exact List.mem_append_left _ (List.mem_reverse.mpr (List.mem_map.mpr ⟨other, hold, rfl⟩))
    refine hapart task (List.mem_filterMap.mpr ⟨_, hevent, hsame⟩) task ?_ rfl
    exact List.mem_filterMap.mpr ⟨event, List.mem_singleton_self event, htask⟩

end Play

/-!
A small world to play in: one slot, a second for each clip, and one video.
-/

namespace Sample

def settings : Settings :=
  { Settings.defaults with
    inputDirectory := "/in"
    outputDirectory := "/out"
    maxRenders := 1
    renderTimeout := Binary64.one }

def engine (ignoresTerminate : Bool) : Engine.Script :=
  { startDelay := 0
    startFault := none
    output := none
    lifetime := none
    exitCode := 0
    report := []
    reportDelay := 0
    ignoresTerminate := ignoresTerminate
    terminateDelay := 0
    terminateCode := -15
    killDelay := 0
    leavesChildren := false }

def world (script : Engine.Script) : World :=
  { files := ⟨[(["in"], .directory), (["in", "v.mp4"], .file ⟨[], 0, false⟩),
      (["out"], .directory)], []⟩
    epoch := 0
    now := 0
    tokensDrawn := 0
    programDirectory := ""
    scripts := []
    otherScript := script
    spawned := 0
    spawns := []
    signals := []
    refusals := .byName [] [] }

def order (id : String) : Order :=
  ⟨some "v.mp4", ⟨Binary64.zero, Binary64.one⟩, EditSpec.untouched, some id⟩

def pool : Pool := ⟨settings, 1, [], [], [], [], [], [], [], [], 0, [], []⟩

theorem new_settings : Pool.new settings = .ok pool := rfl

/-- The events in the sample world, with engines that end when asked to or that do not. -/
def play (ignoresTerminate : Bool) (events : List Event) : Play :=
  Play.ofEvents pool (world (engine ignoresTerminate)) events

theorem run_play (ignoresTerminate : Bool) (events : List Event)
    (hcallers : (events.filterMap Event.caller?).Nodup) :
    Run settings (play ignoresTerminate events).steps (play ignoresTerminate events).pool
      (play ignoresTerminate events).world.spawned := by
  have start : Run settings [] pool (world (engine ignoresTerminate)).spawned :=
    .start new_settings
  have h := Play.run start events hcallers
  rwa [List.append_nil] at h

end Sample

end ClipRender.Rendering
