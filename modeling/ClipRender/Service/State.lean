import ClipRender.Cleanup
import ClipRender.Http.Dispatch
import ClipRender.Rendering.Handle
import ClipRender.Settings.Read
import ClipRender.Timing.Agenda

set_option autoImplicit false

/-!
The service as a whole: its pools of renders, the sweeps that come round and the tasks that callers
wait for.
-/

namespace ClipRender.Service

/-- Why a task was set going, which tells how its end is reported. -/
inductive Purpose where
  /-- A render whose status others can watch. -/
  | render
  /-- A render that only its result is wanted of. -/
  | export
  | cancel
  | request (request : Http.Request) (jobId : String)
  | sweeps
  | startup
  | shutdown

structure Task where
  id : Nat
  label : String
  purpose : Purpose
  pool : Option Nat

inductive Result where
  | clip (clip : Rendering.Export)
  | found (found : Bool)
  | response (response : Http.Response)
  | nothing
  | failed (failure : Failure)

structure Done where
  time : Nat
  label : String
  result : Result

/-- Sweeps that come round until they are stopped. -/
structure Sweeper where
  number : Nat
  settings : Settings
  /-- The task that runs it, if it does not belong to the service itself. -/
  task : Option Nat
  /-- Why it has ended by itself. -/
  failure : Option Failure

/-- Something that is done without a pause. -/
inductive Turn where
  | event (pool : Nat) (event : Rendering.Event)
  /-- A sweeper sets out for the time until its next sweep. -/
  | pause (sweeper : Nat)
  | sweepDue (sweeper : Nat)
  | sweep (sweeper : Nat)
deriving DecidableEq

structure State where
  world : World
  environment : List (String × String)
  pools : List Rendering.Pool
  /-- The pool for requests, while the service is up. -/
  appPool : Option Nat
  /-- The pool for those who call while the service is not up. -/
  ownPool : Option Nat
  /-- The sweeper of the service as it was started last, unless it has been shut down. -/
  appSweeper : Option Nat
  sweepers : List Sweeper
  tasks : List Task
  agenda : Agenda Turn
  /-- The turns of the next round, in order. -/
  ready : List Turn
  /-- The last number given to a task or a sweeper. -/
  numbers : Nat
  done : List Done

namespace State

def start (world : World) (environment : List (String × String)) : State :=
  ⟨world, environment, [], none, none, none, [], [], .empty, [], 0, []⟩

def settings (s : State) : Except Failure Settings := Settings.read s.environment ""

def pool? (s : State) (index : Nat) : Option Rendering.Pool := s.pools[index]?

def currentPool? (s : State) : Option Rendering.Pool := (s.appPool.or s.ownPool).bind s.pool?

def setPool (s : State) (index : Nat) (pool : Rendering.Pool) : State :=
  { s with pools := s.pools.set index pool }

def freshNumber (s : State) : Nat × State := (s.numbers + 1, { s with numbers := s.numbers + 1 })

def addPool (s : State) (pool : Rendering.Pool) : Nat × State :=
  (s.pools.length, { s with pools := s.pools ++ [pool] })

def addTask (s : State) (label : String) (purpose : Purpose) (pool : Option Nat) : Nat × State :=
  let (id, s) := s.freshNumber
  (id, { s with tasks := s.tasks ++ [⟨id, label, purpose, pool⟩] })

def report (s : State) (label : String) (result : Result) : State :=
  { s with done := s.done ++ [⟨s.world.now, label, result⟩] }

def enqueue (s : State) (turn : Turn) : State := { s with ready := s.ready ++ [turn] }

def makeAppointment (s : State) (time : Binary64) (turn : Turn) : State :=
  { s with agenda := s.agenda.insert time turn }

def callOff (s : State) (turn : Turn) : State := { s with agenda := s.agenda.callOff turn }

def accept (pool : Nat) (s : State) : Rendering.Posting → State
  | .next event => s.enqueue (.event pool event)
  | .at time event => s.makeAppointment time (.event pool event)
  | .callOff event => s.callOff (.event pool event)

def resultOf (purpose : Purpose) (outcome : Rendering.Outcome) : Result :=
  match purpose, outcome with
  | .request .., .failed .aborted => .failed .aborted
  | .request request jobId, outcome =>
    .response (Http.CrossOrigin.finish request (Http.Dispatch.outcomeResponse jobId outcome))
  | _, .exported clip => .clip clip
  | _, .cancelled found => .found found
  | _, .failed failure => .failed failure

def reportEnd (s : State) (ended : Nat × Rendering.Outcome) : State :=
  match s.tasks.find? (·.id = ended.1) with
  | some task => s.report task.label (resultOf task.purpose ended.2)
  | none => s

/-- Tells a pool something and takes up what it called for. -/
def tell (s : State) (index : Nat) (event : Rendering.Event) : State :=
  match s.pool? index with
  | none => s
  | some pool =>
    let scene := Rendering.Scene.handle ⟨pool, s.world, []⟩ event
    let s := { s.setPool index { scene.pool with ended := [] } with world := scene.world }
    scene.postings.foldl (accept index) (scene.pool.ended.foldl reportEnd s)

def sweeper? (s : State) (number : Nat) : Option Sweeper := s.sweepers.find? (·.number = number)

def failSweeper (s : State) (sweeper : Sweeper) (failure : Failure) : State :=
  let mark (a : Sweeper) : Sweeper :=
    if a.number = sweeper.number then { a with failure := some failure } else a
  let s := { s with sweepers := s.sweepers.map mark }
  match s.tasks.find? (fun t => sweeper.task = some t.id) with
  | some task => s.report task.label (.failed failure)
  | none => s

/-- Sets the time of the next sweep, if the interval can be added to a time. -/
def pause (s : State) (sweeper : Sweeper) : State :=
  let interval := Binary64.ofInt sweeper.settings.cleanupInterval
  if interval.isFinite then
    s.makeAppointment (Alarm.seconds s.world.now + interval) (.sweepDue sweeper.number)
  else s.failSweeper sweeper .wholeTooLarge

def sweepOnce (s : State) (settings : Settings) (now : Binary64) : State × List String :=
  let (world, removed) := Cleanup.sweep s.world settings now
  ({ s with world := world }, removed)

def forSweeper (s : State) (number : Nat) (f : Sweeper → State) : State :=
  match s.sweeper? number with
  | some sweeper => if sweeper.failure.isSome then s else f sweeper
  | none => s

def take (s : State) : Turn → State
  | .event pool event => s.tell pool event
  | .pause number => s.forSweeper number s.pause
  | .sweepDue number => s.enqueue (.sweep number)
  | .sweep number => s.forSweeper number fun sweeper =>
      (s.sweepOnce sweeper.settings s.world.time).1.pause sweeper

/-- A round: those whose time has come join the line, and everyone in it has a turn. Whoever is
called meanwhile is in the line of the next round. -/
def round (s : State) : State :=
  let (due, agenda) := s.agenda.takeDue s.world.now
  (s.ready ++ due).foldl take { s with ready := [], agenda := agenda }

def isIdle (s : State) : Bool :=
  s.ready.isEmpty && (s.agenda.nextDue? s.world.now).all (s.world.now < ·)

/-- All that happens before time goes on. The fuel bounds the number of rounds. -/
def settle (fuel : Nat) (s : State) : State :=
  match fuel with
  | 0 => s
  | fuel + 1 => if s.isIdle then s else settle fuel s.round

/-- More rounds than a step of a session takes. -/
def settleFuel : Nat := 1000000

end State

end ClipRender.Service
