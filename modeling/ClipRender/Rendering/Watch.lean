import ClipRender.Rendering.Finish
import ClipRender.Rendering.Lookout

set_option autoImplicit false

/-!
From the start of an engine on, a render watches it for as long as the time budget lasts.
-/

namespace ClipRender.Rendering.Scene

/-- Watches the engine within the time budget. A budget of nothing is used up at once. -/
def watch (scene : Scene) (r : Render) (pid : Nat) : Scene :=
  let budget := scene.pool.settings.renderTimeout
  let (number, scene) :=
    if Binary64.le budget Binary64.zero then scene.sendLookoutInVain (.render r.task) pid true
    else scene.sendLookout (.render r.task) pid true budget
  scene.onPool (·.setPhase r.task (.watching pid number))

def writeOutput (world : World) (part : Files.Path) : Option Engine.Output → World
  | none => world
  | some .directory =>
    { world with files := Files.Change.attempt world.files (world.files.makeDirectory part) }
  | some (.file content) =>
    { world with
      files := Files.Change.attempt world.files
        (world.files.write part ⟨content, world.instant, false⟩) }

def addProcess (scene : Scene) (r : Render) (script : Engine.Script) : Nat × Scene :=
  let pid := scene.world.spawned + 1
  let world := { scene.world with
    spawned := pid, spawns := scene.world.spawns ++ [⟨scene.world.now, pid, r.command⟩] }
  (pid, { scene with
    world := writeOutput world r.part script.output
    pool := { scene.pool with
      processes := scene.pool.processes ++ [.start pid script]
      active := (r.job.id, pid) :: scene.pool.active } })

/-- Calls for the end that the engine comes to by itself. -/
def scheduleExit (scene : Scene) (pid : Nat) (script : Engine.Script) : Scene :=
  match script.lifetime with
  | none => scene
  | some 0 => scene.exit pid script.exitCode
  | some n => scene.postAfter n (.exited pid script.exitCode)

end ClipRender.Rendering.Scene
