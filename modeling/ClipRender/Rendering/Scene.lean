import ClipRender.Rendering.Pool
import ClipRender.Timing.Alarm
import ClipRender.World

set_option autoImplicit false

/-!
A pool in the world, with the events that it has called for: turns in the next round and events due
at a time of their own. What follows is what a pool does between two points of waiting.
-/

namespace ClipRender.Rendering

inductive Event where
  | order (task : Nat) (order : Order)
  | cancel (task : Nat) (jobId : String)
  | turn (party : Party)
  | look (number : Nat)
  /-- A lookout that is back is announced to its owner. -/
  | announce (number : Nat)
  | alarm (number : Nat)
  /-- The time that the system takes to start the engine of a render is over. -/
  | startDue (task : Nat)
  /-- The system is done with starting the engine of a render. -/
  | spawned (task : Nat)
  | exited (pid : Nat) (code : Int)
  | drained (pid : Nat)
  /-- The stopper that an aborted render waits for is done. -/
  | stopped (task : Nat)
  /-- A task is aborted from outside. -/
  | abort (task : Nat)
deriving DecidableEq

inductive Posting where
  /-- An event for the next round. -/
  | next (event : Event)
  | at (time : Binary64) (event : Event)
  /-- What was set for a time of its own is not waited for any more. -/
  | callOff (event : Event)
deriving DecidableEq

structure Scene where
  pool : Pool
  world : World
  postings : List Posting

namespace Scene

def onPool (scene : Scene) (f : Pool → Pool) : Scene := { scene with pool := f scene.pool }

def ask (scene : Scene) (posting : Posting) : Scene :=
  { scene with postings := scene.postings ++ [posting] }

def post (scene : Scene) (event : Event) : Scene := scene.ask (.next event)

def postAfter (scene : Scene) (delay : Nat) (event : Event) : Scene :=
  scene.ask (.at (Alarm.after scene.world.now delay) event)

/-- A number that no lookout and no stopper has. -/
def freshNumber (scene : Scene) : Nat × Scene :=
  (scene.pool.numbers + 1, scene.onPool fun p => { p with numbers := p.numbers + 1 })

def tell (scene : Scene) : Listener → Scene
  | .lookout number =>
    match scene.pool.lookout? number with
    | some l => (scene.onPool (·.setLookout { l with stage := .called })).post (.look number)
    | none => scene
  | .stopper number => scene.post (.turn (.stopper number))

/-- An engine ends, unless it has ended before, and all who listen are told in order. -/
def exit (scene : Scene) (pid : Nat) (code : Int) : Scene :=
  match scene.pool.process? pid with
  | none => scene
  | some process =>
    if !process.isRunning then scene
    else
      let told := (scene.pool.listeners.filter (·.1 = pid)).map (·.2)
      told.foldl tell <| scene.onPool fun p =>
        { p.setProcess (process.ended code) with listeners := p.listeners.filter (·.1 ≠ pid) }

def logSignal (scene : Scene) (pid : Nat) (signal : Engine.Signal) (heard : Bool) : Scene :=
  { scene with
    world := { scene.world with
      signals := scene.world.signals ++ [⟨scene.world.now, pid, signal, heard⟩] } }

/-- A signal to an engine and its children. -/
def send (scene : Scene) (pid : Nat) (signal : Engine.Signal) : Scene :=
  match scene.pool.process? pid with
  | none => scene
  | some process =>
    let scene := scene.logSignal pid signal process.hears
    match process.exitOn signal with
    | none => scene
    | some (0, code) => scene.exit pid code
    | some (delay, code) => scene.postAfter delay (.exited pid code)

/-- Gives a free slot to the render that waits longest. -/
def grant (scene : Scene) : Scene :=
  match scene.pool.renders.find? (·.phase = .queued) with
  | none => scene
  | some r =>
    (scene.onPool fun p => { p.setPhase r.task .granted with free := p.free - 1 }).post
      (.turn (.render r.task))

def release (scene : Scene) : Scene :=
  (scene.onPool fun p => { p with free := p.free + 1 }).grant

/-- An unfinished output is removed if that can be done. To look for it is taken never to fail. -/
def discardPart (world : World) (part : Files.Path) : World :=
  if world.files.leadsSomewhere part then
    match world.files.remove part with
    | .ok files => { world with files := files }
    | .error _ => world
  else world

def leave (scene : Scene) (r : Render) : Scene :=
  { scene with
    world := discardPart scene.world r.part
    pool := { scene.pool with
      renders := scene.pool.renders.filter (·.task ≠ r.task)
      inFlight := scene.pool.inFlight.filter (· ≠ r.job.id)
      flagged := scene.pool.flagged.filter (· ≠ r.job.id)
      active := scene.pool.active.filter (·.1 ≠ r.job.id) } }

/-- What a failure makes of the status of a job; one that nobody plans for leaves it. -/
def statusAfter (scene : Scene) (task : Nat) (failure : Failure) : Scene :=
  match failure with
  | .reported error => scene.onPool (·.setStatus task (.failed error.kind error.detail))
  | .aborted => scene.onPool (·.setStatus task (.failed .renderCancelled "Render task cancelled"))
  | _ => scene

/-- The end of a render that holds no slot. -/
def fail (scene : Scene) (r : Render) (failure : Failure) : Scene :=
  ((scene.statusAfter r.task failure).leave r).onPool (·.finish r.task (.failed failure))

/-- The end of a render that holds a slot. -/
def failHolding (scene : Scene) (r : Render) (failure : Failure) : Scene :=
  scene.release.fail r failure

end Scene

end ClipRender.Rendering
