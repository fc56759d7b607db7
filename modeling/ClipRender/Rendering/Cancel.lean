import ClipRender.Rendering.Stop

set_option autoImplicit false

/-!
Renders that are not to go on. A call that cancels a job marks it and stops its engine if that runs.
An abort ends a render at once, unless its engine runs: then it sees that the engine is stopped
first, unless it is aborted once more.
-/

namespace ClipRender.Rendering.Scene

/-- A call to cancel a job: its engine is stopped if it runs, and else the job is only marked. -/
def cancel (scene : Scene) (task : Nat) (jobId : String) : Scene :=
  if !scene.pool.inFlight.contains jobId then scene.onPool (·.finish task (.cancelled false))
  else
    let scene := scene.onPool (·.flag jobId)
    match scene.pool.runningEngine? jobId with
    -- The render looks for the mark once it has its slot, and again once it has its engine.
    | none => scene.onPool (·.finish task (.cancelled true))
    | some pid => scene.stop pid (.call task)

/-- The stopper of an aborted render goes on by itself. -/
def abandon (scene : Scene) (task : Nat) : Scene :=
  scene.onPool fun p =>
    { p with
      stoppers := p.stoppers.map fun s =>
        if s.client = .aborted task then { s with client := .nobody } else s }

def abortStop (scene : Scene) (s : Stopper) : Scene :=
  match s.stage with
  -- Only the stopper of an aborted render waits for its first turn, and that works in no task.
  | .called => scene
  | .grace number => scene.abortWait number
  | .killed => scene.giveUp s

def worksIn (task : Nat) (s : Stopper) : Bool :=
  match s.client with
  | .call t => t = task
  | .render t _ => t = task
  | _ => false

def abortRender (scene : Scene) (r : Render) : Scene :=
  match r.phase with
  | .queued => scene.fail r .aborted
  | .granted => scene.failHolding r .aborted
  | .spawning _ => (scene.ask (.callOff (.startDue r.task))).failHolding r .aborted
  | .watching _ number => scene.abortWait number
  | .stopping =>
    match scene.pool.stoppers.find? (worksIn r.task) with
    | some s => scene.abortStop s
    | none => scene
  | .shielded => (scene.abandon r.task).failHolding r .aborted

def abort (scene : Scene) (task : Nat) : Scene :=
  match scene.pool.render? task, scene.pool.stoppers.find? (worksIn task) with
  | some r, _ => scene.abortRender r
  | none, some s => scene.abortStop s
  | none, none => scene

end ClipRender.Rendering.Scene
