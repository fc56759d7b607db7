import ClipRender.Rendering.Watch

set_option autoImplicit false

/-!
The stopping of an engine: it is asked to end and killed if it has not done so when the grace is
over. In the end whatever is left of its group is killed. A stopper does that for a call that
cancels, for a render whose time is up or whose job was cancelled while the engine was being
started, or for a render that was aborted.
-/

namespace ClipRender.Rendering.Scene

/-- Leaves the engine of an aborted render to a stopper, for which the render waits. -/
def shield (scene : Scene) (r : Render) (pid : Nat) : Scene :=
  let (number, scene) := scene.freshNumber
  (scene.onPool fun p =>
    { p.setPhase r.task .shielded with
      stoppers := p.stoppers ++ [⟨number, pid, .called, .aborted r.task⟩] }).post
    (.turn (.stopper number))

def goOn (scene : Scene) (r : Render) (pid : Nat) : StopReason → Scene
  | .cancelled => scene.watch r pid
  | .timeout => scene.timeOut r

def finishStop (scene : Scene) (s : Stopper) : Scene :=
  -- Children may outlive the engine, so its group is killed even if it has ended by itself.
  let scene := (scene.send s.pid .kill).onPool (·.dropStopper s.number)
  match s.client with
  | .call task => scene.onPool (·.finish task (.cancelled true))
  | .render task reason =>
    match scene.pool.render? task with
    | some r => scene.goOn r s.pid reason
    | none => scene
  | .aborted task => scene.post (.stopped task)
  | .nobody => scene

def beginStop (scene : Scene) (s : Stopper) : Scene :=
  if scene.pool.isRunning s.pid then
    let (number, scene) :=
      (scene.send s.pid .terminate).sendLookout (.stopper s.number) s.pid false Settings.killGrace
    scene.onPool (·.setStage s.number (.grace number))
  else scene.finishStop s

def killStopped (scene : Scene) (s : Stopper) : Scene :=
  let scene := scene.send s.pid .kill
  if scene.pool.isRunning s.pid then
    scene.onPool fun p => (p.setStage s.number .killed).listen s.pid (.stopper s.number)
  else scene.finishStop s

/-- The task that a stopper is part of is aborted. -/
def giveUp (scene : Scene) (s : Stopper) : Scene :=
  let scene := scene.onPool fun p => (p.dropStopper s.number).unlisten (.stopper s.number)
  match s.client with
  | .call task => scene.onPool (·.finish task (.failed .aborted))
  | .render task reason =>
    match scene.pool.render? task with
    | none => scene
    | some r =>
      match reason with
      -- A stop before the watch begins is guarded as the watch is; one after a timeout is not.
      | .cancelled => scene.shield r s.pid
      | .timeout => scene.failHolding r .aborted
  | _ => scene

def stop (scene : Scene) (pid : Nat) (client : Client) : Scene :=
  let (number, scene) := scene.freshNumber
  let s : Stopper := ⟨number, pid, .called, client⟩
  (scene.onPool fun p => { p with stoppers := p.stoppers ++ [s] }).beginStop s

def stopOwn (scene : Scene) (r : Render) (pid : Nat) (reason : StopReason) : Scene :=
  (scene.onPool (·.setPhase r.task .stopping)).stop pid (.render r.task reason)

def stopperTurn (scene : Scene) (s : Stopper) : Scene :=
  match s.stage with
  | .called => scene.beginStop s
  | .grace number =>
    match scene.consult number with
    | (scene, none) => scene
    | (scene, some .seen) => scene.finishStop s
    | (scene, some (.recalled .timeUp)) => scene.killStopped s
    | (scene, some (.recalled .aborted)) => scene.giveUp s
  | .killed => if scene.pool.isRunning s.pid then scene else scene.finishStop s

end ClipRender.Rendering.Scene
