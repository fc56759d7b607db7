import ClipRender.Engine.Process
import ClipRender.Failure
import ClipRender.Rendering.Phase
import ClipRender.Settings.Basic

set_option autoImplicit false

/-!
A pool of renders. At most as many engines run as the pool has slots; other renders wait in line.
The tables tell which jobs are in flight, which engine works for which job and which jobs are to be
cancelled.
-/

namespace ClipRender.Rendering

structure Export where
  jobId : String
  outputName : String
  outputPath : String
  accessUrl : String
  sizeInBytes : Nat
  /-- From the slot to the finished file. -/
  milliseconds : Nat
deriving DecidableEq

inductive Outcome where
  | exported (clip : Export)
  /-- The answer to a call that cancels: whether the job was in flight. -/
  | cancelled (found : Bool)
  | failed (failure : Failure)
deriving DecidableEq

structure Pool where
  settings : Settings
  /-- Slots that nobody holds. -/
  free : Nat
  inFlight : List String
  /-- The engine of each job that has one. -/
  active : List (String × Nat)
  /-- Jobs to be cancelled. -/
  flagged : List String
  /-- Renders that have not ended, oldest first. -/
  renders : List Render
  stoppers : List Stopper
  lookouts : List Lookout
  processes : List Engine.Process
  /-- Who is told that an engine ends, by its pid, in the order in which they asked for it. -/
  listeners : List (Nat × Listener)
  /-- The last number given to a lookout or a stopper. -/
  numbers : Nat
  /-- How each job came along, by the task that rendered it. -/
  statuses : List (Nat × JobStatus)
  /-- Tasks that have ended, latest last. -/
  ended : List (Nat × Outcome)
deriving DecidableEq

namespace Pool

def new (settings : Settings) : Except Failure Pool :=
  if settings.maxRenders < 0 then .error .negativeSlots
  else .ok ⟨settings, settings.maxRenders.toNat, [], [], [], [], [], [], [], [], 0, [], []⟩

def render? (pool : Pool) (task : Nat) : Option Render := pool.renders.find? (·.task = task)

def stopper? (pool : Pool) (number : Nat) : Option Stopper :=
  pool.stoppers.find? (·.number = number)

def lookout? (pool : Pool) (number : Nat) : Option Lookout :=
  pool.lookouts.find? (·.number = number)

def process? (pool : Pool) (pid : Nat) : Option Engine.Process := pool.processes.find? (·.pid = pid)

def isRunning (pool : Pool) (pid : Nat) : Bool := (pool.process? pid).any (·.isRunning)

def runningEngine? (pool : Pool) (jobId : String) : Option Nat :=
  (pool.active.lookup jobId).filter pool.isRunning

def flag (pool : Pool) (jobId : String) : Pool :=
  if pool.flagged.contains jobId then pool else { pool with flagged := jobId :: pool.flagged }

/-- Renders that have no slot yet or only just got it; whoever comes later lines up behind them. -/
def isWaiting (r : Render) : Bool :=
  match r.phase with
  | .queued => true
  | .granted => true
  | _ => false

def setPhase (pool : Pool) (task : Nat) (phase : Phase) : Pool :=
  { pool with
    renders := pool.renders.map fun r => if r.task = task then { r with phase := phase } else r }

def setStage (pool : Pool) (number : Nat) (stage : Stage) : Pool :=
  { pool with
    stoppers := pool.stoppers.map fun s =>
      if s.number = number then { s with stage := stage } else s }

def setLookout (pool : Pool) (l : Lookout) : Pool :=
  { pool with lookouts := pool.lookouts.map fun k => if k.number = l.number then l else k }

/-- The pool without a lookout, which may come back to where its owner has gone. -/
def dropLookout (pool : Pool) (number : Nat) : Pool :=
  { pool with lookouts := pool.lookouts.filter (·.number ≠ number) }

def dropStopper (pool : Pool) (number : Nat) : Pool :=
  { pool with stoppers := pool.stoppers.filter (·.number ≠ number) }

def listen (pool : Pool) (pid : Nat) (listener : Listener) : Pool :=
  { pool with listeners := pool.listeners ++ [(pid, listener)] }

def unlisten (pool : Pool) (listener : Listener) : Pool :=
  { pool with listeners := pool.listeners.filter (·.2 ≠ listener) }

def setProcess (pool : Pool) (process : Engine.Process) : Pool :=
  { pool with
    processes := pool.processes.map fun p => if p.pid = process.pid then process else p }

def setStatus (pool : Pool) (task : Nat) (status : JobStatus) : Pool :=
  { pool with statuses := pool.statuses.map fun s => if s.1 = task then (task, status) else s }

def finish (pool : Pool) (task : Nat) (outcome : Outcome) : Pool :=
  { pool with ended := pool.ended ++ [(task, outcome)] }

end Pool

end ClipRender.Rendering
