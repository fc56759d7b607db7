import ClipRender.Service.Clock

set_option autoImplicit false

/-!
A session with the service: callers do one thing after another, and between them time passes on a
clock that only they move. What each step brings about is told in an entry.
-/

namespace ClipRender.Service

inductive Step where
  /-- Untyped data for a render; `watched` if its status is to be told from then on. -/
  | start (label : String) (reference : Option String) (moment spec : Json.Value)
      (jobId : Option String) (watched : Bool)
  | cancel (label jobId : String)
  | abort (label : String)
  | advance (milliseconds : Nat)
  | files (changes : List Files.Change)
  | environment (values : List (String × String))
  | sweep (now : Option Binary64)
  | sweeps (label : String)
  | startup (label : String)
  | shutdown (label : String)
  | request (label : String) (request : Http.Request)

structure Progress where
  label : String
  status : Rendering.JobStatus

/-- What one step brought about, and what the tables show after it. -/
structure Entry where
  time : Nat
  active : Nat
  jobs : List String
  cancelled : List String
  progress : List Progress
  spawns : List SpawnRecord
  signals : List SignalRecord
  done : List Done
  removed : Option (List String)

namespace State

/-- The pool that serves now; one is made for those who call while the service is not up. -/
def servingPool (s : State) : Except Failure (Nat × State) :=
  match s.appPool.or s.ownPool with
  | some index => .ok (index, s)
  | none => do
    let settings ← s.settings
    let pool ← Rendering.Pool.new settings
    let (index, s) := s.addPool pool
    return (index, { s with ownPool := some index })

def orderOf (reference : Option String) (moment spec : Json.Value) (jobId : Option String) :
    Except Failure Rendering.Order :=
  match Moment.ofData moment with
  | .faulty first more => .error (.reported (.invalidData (first :: more)))
  | .valid moment =>
    match EditSpec.ofData spec with
    | .faulty first more => .error (.reported (.invalidData (first :: more)))
    | .valid spec => .ok ⟨reference, moment, spec, jobId⟩

/-- A task that ends as soon as it is set going. -/
def conclude (s : State) (label : String) (purpose : Purpose) (result : Result) : State :=
  (s.addTask label purpose none).2.report label result

def begin (s : State) (label : String) (purpose : Purpose) (pool : Nat)
    (event : Nat → Rendering.Event) : State :=
  let (id, s) := s.addTask label purpose (some pool)
  s.enqueue (.event pool (event id))

def startRender (s : State) (label : String) (reference : Option String)
    (moment spec : Json.Value) (jobId : Option String) (watched : Bool) : State :=
  let purpose : Purpose := if watched then .render else .export
  match orderOf reference moment spec jobId with
  | .error failure => s.conclude label purpose (.failed failure)
  | .ok order =>
    match s.servingPool with
    | .error failure => s.conclude label purpose (.failed failure)
    | .ok (pool, s) => s.begin label purpose pool fun task => .order task order

def startCancel (s : State) (label jobId : String) : State :=
  match s.servingPool with
  | .error failure => s.conclude label .cancel (.failed failure)
  | .ok (pool, s) => s.begin label .cancel pool fun task => .cancel task jobId

/-- The task of a label; of several the latest. -/
def task? (s : State) (label : String) : Option Task := s.tasks.reverse.find? (·.label = label)

/-- A sweeper goes, and its next sweep does not come. -/
def stopSweeper (s : State) (number : Nat) : State :=
  { s with sweepers := s.sweepers.filter (·.number ≠ number) }.callOff (.sweepDue number)

def abort (s : State) (label : String) : State :=
  match s.task? label with
  | none => s
  | some task =>
    match task.pool, s.sweepers.find? (·.task = some task.id) with
    | some pool, _ => s.enqueue (.event pool (.abort task.id))
    | none, some sweeper =>
      if sweeper.failure.isSome then s
      else (s.stopSweeper sweeper.number).report label (.failed .aborted)
    | none, none => s

/-- A sweeper that begins in the next round. -/
def addSweeper (s : State) (settings : Settings) (task : Option Nat) : Nat × State :=
  let (number, s) := s.freshNumber
  let sweeper : Sweeper := ⟨number, settings, task, none⟩
  (number, { s with sweepers := s.sweepers ++ [sweeper] }.enqueue (.pause number))

def startSweeps (s : State) (label : String) : State :=
  match s.settings with
  | .error failure => s.conclude label .sweeps (.failed failure)
  | .ok settings =>
    let (id, s) := s.addTask label .sweeps none
    (s.addSweeper settings (some id)).2

def ensureDirectory (s : State) (directory : String) : State × Option Files.Fault :=
  let (files, fault?) := s.world.files.ensureDirectories directory
  ({ s with world := { s.world with files := files } }, fault?)

def openPool (s : State) (settings : Settings) : Except Failure State := do
  let pool ← Rendering.Pool.new settings
  let (index, s) := s.addPool pool
  let (number, s) := { s with appPool := some index }.addSweeper settings none
  return { s with appSweeper := some number }

def setUp (s : State) (settings : Settings) : State × Option Failure :=
  match s.ensureDirectory settings.inputDirectory with
  | (s, some fault) => (s, some (.file fault))
  | (s, none) =>
    match s.ensureDirectory settings.outputDirectory with
    | (s, some fault) => (s, some (.file fault))
    | (s, none) =>
      match s.openPool settings with
      | .error failure => (s, some failure)
      | .ok s => (s, none)

def startup (s : State) (label : String) : State :=
  let s := { s with appSweeper := none }
  match s.settings with
  | .error failure => s.conclude label .startup (.failed failure)
  | .ok settings =>
    match s.setUp settings with
    | (s, some failure) => s.conclude label .startup (.failed failure)
    | (s, none) => s.conclude label .startup .nothing

/-- Renders go on, but the service does not know of them any more. If the sweeper has ended by
itself, why it did so is all that comes of a shutdown. -/
def shutdown (s : State) (label : String) : State :=
  match s.appSweeper.bind s.sweeper? with
  | none => s.conclude label .shutdown .nothing
  | some sweeper =>
    let s := { s with appSweeper := none }
    match sweeper.failure with
    | some failure => s.conclude label .shutdown (.failed failure)
    | none =>
      { s.stopSweeper sweeper.number with appPool := none }.conclude label .shutdown .nothing

def surroundings (s : State) : Http.Surroundings where
  settings := s.settings
  files := s.world.files
  programDirectory := s.world.programDirectory
  activeRenders := (s.appPool.bind s.pool?).map (·.active.length)

def startRequest (s : State) (label : String) (request : Http.Request) : State :=
  -- Only with a pool in its place does a request come to more than a response.
  match Http.Dispatch.action s.surroundings request, s.appPool with
  | .render order, some pool =>
    s.begin label (.request request "") pool fun task => .order task order
  | .cancel jobId, some pool =>
    s.begin label (.request request jobId) pool fun task => .cancel task jobId
  | .respond response, _ =>
    s.conclude label (.request request "") (.response (Http.CrossOrigin.finish request response))
  | _, none => s

/-- A variable set, in its old place if it had one. -/
def setOne (environment : List (String × String)) (v : String × String) : List (String × String) :=
  if environment.any (·.1 = v.1) then environment.map fun a => if a.1 = v.1 then v else a
  else environment ++ [v]

def sweep (s : State) (now : Option Binary64) : Except Failure (State × List String) :=
  s.settings.map fun settings => s.sweepOnce settings (now.getD s.world.time)

def perform (s : State) : Step → State
  | .start label reference moment spec jobId watched =>
    s.startRender label reference moment spec jobId watched
  | .cancel label jobId => s.startCancel label jobId
  | .abort label => s.abort label
  | .advance ms => s.advanceTo advanceFuel (s.world.now + ms)
  | .files changes =>
    { s with world := { s.world with files := changes.foldl Files.Change.apply s.world.files } }
  | .environment values => { s with environment := values.foldl setOne s.environment }
  | .sweep _ => s
  | .sweeps label => s.startSweeps label
  | .startup label => s.startup label
  | .shutdown label => s.shutdown label
  | .request label request => s.startRequest label request

def sorted (names : List String) : List String := names.mergeSort fun a b => a ≤ b

def progressOf (s : State) (task : Task) : Option Progress :=
  match task.purpose, task.pool.bind s.pool? with
  | .render, some pool => (pool.statuses.lookup task.id).map fun status => ⟨task.label, status⟩
  | _, _ => none

def before (a b : Done) : Bool := a.time < b.time || (a.time = b.time && a.label ≤ b.label)

def entry (s : State) (removed : Option (List String)) : Entry where
  time := s.world.now
  active := ((s.currentPool?).map (·.active.length)).getD 0
  jobs := sorted (((s.currentPool?).map (·.inFlight)).getD [])
  cancelled := sorted (((s.currentPool?).map (·.flagged)).getD [])
  progress := s.tasks.filterMap s.progressOf
  spawns := s.world.spawns
  signals := s.world.signals
  done := s.done.mergeSort before
  removed := removed

/-- The records that belong to the next step start empty. -/
def clear (s : State) : State :=
  { s with world := { s.world with spawns := [], signals := [] }, done := [] }

def step (s : State) : Step → Except Failure (State × Entry)
  | .sweep now => do
    let (s, removed) ← s.clear.sweep now
    return (s, s.entry (some removed))
  | step =>
    let s := (s.clear.perform step).settle settleFuel
    .ok (s, s.entry none)

def run (s : State) : List Step → Except Failure (List Entry)
  | [] => .ok []
  | first :: rest => do
    let (s, entry) ← s.step first
    let entries ← s.run rest
    return entry :: entries

end State

end ClipRender.Service
