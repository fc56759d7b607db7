import ClipRender.Rendering.Command
import ClipRender.Rendering.Stop
import ClipRender.Source

set_option autoImplicit false

/-!
From the order to the slot: an order becomes a job with a source and a command, which lines up and
starts its engine as soon as it may.
-/

namespace ClipRender.Rendering.Scene

def markStarted (pool : Pool) (task now : Nat) (script : Engine.Script) : Pool :=
  { pool with
    renders := pool.renders.map fun r =>
      if r.task = task then { r with phase := .spawning script, started := now } else r }

/-- The engine is there. One whose job was cancelled meanwhile is stopped before it is watched. -/
def attend (scene : Scene) (r : Render) (pid : Nat) : Scene :=
  if scene.pool.flagged.contains r.job.id then scene.stopOwn r pid .cancelled
  else scene.watch r pid

def started (scene : Scene) (r : Render) (script : Engine.Script) : Scene :=
  match script.startFault with
  | some fault =>
    scene.failHolding r (.reported (.cannotStart scene.pool.settings.enginePath fault))
  | none =>
    let (pid, scene) := scene.addProcess r script
    (scene.scheduleExit pid script).attend r pid

/-- A render that has its slot starts its engine, unless its job was cancelled while it waited. -/
def begin (scene : Scene) (r : Render) : Scene :=
  if scene.pool.flagged.contains r.job.id then
    scene.failHolding r (.reported .cancelledInQueue)
  else
    let (script, world) := scene.world.takeScript
    let scene := { scene with world := world }.onPool fun p =>
      (markStarted p r.task world.now script).setStatus r.task .running
    let r := { r with phase := .spawning script, started := world.now }
    if script.startDelay = 0 then scene.started r script
    else scene.postAfter script.startDelay (.startDue r.task)

/-- Lines up for a slot. One that is free goes to whoever comes while nobody else waits. -/
def lineUp (scene : Scene) (r : Render) : Scene :=
  if scene.pool.free = 0 || scene.pool.renders.any Pool.isWaiting then
    scene.onPool fun p => { p with renders := p.renders ++ [r] }
  else
    (scene.onPool fun p => { p with renders := p.renders ++ [r], free := p.free - 1 }).begin r

def run (scene : Scene) (task : Nat) (job : Job) : Scene :=
  let output := (Files.Path.ofText scene.pool.settings.outputDirectory).child job.outputName
  let part := output.partial?.getD output
  -- The job is in flight before its command is made, so whatever fails from here on lets go of it.
  let scene := scene.onPool fun p => { p with inFlight := job.id :: p.inFlight }
  match command scene.pool.settings job part.text with
  | .error failure => scene.fail ⟨task, job, output, part, [], 0, .queued⟩ failure
  | .ok arguments => scene.lineUp ⟨task, job, output, part, arguments, 0, .queued⟩

def chooseId (world : World) : Option String → String × World
  | some id => if id.isEmpty then world.drawToken else (id, world)
  | none => world.drawToken

/-- A job for an order whose source is there. A refused order has drawn its tokens all the same. -/
def makeJob (scene : Scene) (order : Order) (source : String) : World × Except Failure Job :=
  let (id, world) := chooseId scene.world order.jobId
  if scene.pool.inFlight.contains id then (world, .error (.reported (.jobInFlight id)))
  else
    match outputName world.time world.drawToken.1 with
    | .error failure => (world, .error failure)
    | .ok name => (world.drawToken.2, .ok ⟨id, source, order.moment, order.spec, name⟩)

def createJob (scene : Scene) (order : Order) : World × Except Failure Job :=
  let directory := Files.Path.ofText scene.pool.settings.inputDirectory
  match Source.resolve scene.world.files directory order.reference with
  | .error failure => (scene.world, .error failure)
  | .ok path => scene.makeJob order path.text

def accept (scene : Scene) (task : Nat) (order : Order) : Scene :=
  let (world, job?) := scene.createJob order
  let scene := { scene with world := world }
  match job? with
  | .error failure => scene.onPool (·.finish task (.failed failure))
  | .ok job =>
    let scene := scene.onPool fun p => { p with statuses := p.statuses ++ [(task, .pending)] }
    let directory := Files.Path.ofText scene.pool.settings.outputDirectory
    let (files, fault?) := scene.world.files.ensureDirectories directory.text
    -- What could be made of the directory stays, and the job has not been in flight.
    let scene := { scene with world := { scene.world with files := files } }
    match fault? with
    | some fault => scene.onPool (·.finish task (.failed (.file fault)))
    | none => scene.run task job

end ClipRender.Rendering.Scene
