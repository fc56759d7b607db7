import ClipRender.Rendering.Accept
import ClipRender.Rendering.Cancel

set_option autoImplicit false

/-!
What each event makes of a pool and its world. An event for somebody who is not there any more, or
does not wait for it, changes nothing.
-/

namespace ClipRender.Rendering.Scene

def answered (scene : Scene) (r : Render) (pid : Nat) : Finding → Scene
  | .seen =>
    match scene.pool.process? pid with
    | some process => scene.conclude r process
    | none => scene
  | .recalled .timeUp => scene.stopOwn r pid .timeout
  | .recalled .aborted => scene.shield r pid

def renderTurn (scene : Scene) (r : Render) : Scene :=
  match r.phase with
  -- A slot that has come free meanwhile is passed on down the line first.
  | .granted => (if scene.pool.free = 0 then scene else scene.grant).begin r
  | .watching pid number =>
    match scene.consult number with
    | (scene, none) => scene
    | (scene, some finding) => scene.answered r pid finding
  | .shielded =>
    if scene.pool.stoppers.any (·.client = .aborted r.task) then scene
    else scene.failHolding r .aborted
  | _ => scene

def turn (scene : Scene) : Party → Scene
  | .render task =>
    match scene.pool.render? task with
    | some r => scene.renderTurn r
    | none => scene
  | .stopper number =>
    match scene.pool.stopper? number with
    | some s => scene.stopperTurn s
    | none => scene

def forLookout (scene : Scene) (number : Nat) (f : Lookout → Scene) : Scene :=
  match scene.pool.lookout? number with
  | some l => f l
  | none => scene

/-- The engine of a render that waits for its start is there, or will not come. -/
def spawned (scene : Scene) (task : Nat) : Scene :=
  match scene.pool.render? task with
  | some r =>
    match r.phase with
    | .spawning script => scene.started r script
    | _ => scene
  | none => scene

def handle (scene : Scene) : Event → Scene
  | .order task order => scene.accept task order
  | .cancel task jobId => scene.cancel task jobId
  | .turn party => scene.turn party
  | .look number => scene.forLookout number scene.look
  | .announce number => scene.forLookout number scene.announce
  | .alarm number => scene.forLookout number scene.alarm
  | .startDue task => scene.post (.spawned task)
  | .spawned task => scene.spawned task
  | .exited pid code => scene.exit pid code
  | .drained pid => scene.drain pid
  | .stopped task => scene.post (.turn (.render task))
  | .abort task => scene.abort task

end ClipRender.Rendering.Scene
