import ClipRender.Rendering.OutputName
import ClipRender.Rendering.Scene

set_option autoImplicit false

/-!
The end of a render whose engine is done with: a clip in its place, or the failure that its engine
leaves behind.
-/

namespace ClipRender.Rendering.Scene

def publish (scene : Scene) (r : Render) : Except Failure Files.Tree :=
  match scene.world.files.file? r.part with
  | .error fault => .error (.file fault)
  | .ok none => .error (.reported .noOutput)
  | .ok (some _) => (scene.world.files.rename r.part r.output).mapError .file

/-- The end of a render whose output is in its place. -/
def succeed (scene : Scene) (r : Render) : Scene :=
  -- The slot is free and the job forgotten before anybody asks for the size of the clip.
  let scene := scene.release.leave r
  match scene.world.files.status r.output with
  | .error fault => scene.onPool (·.finish r.task (.failed (.file fault)))
  | .ok entry =>
    let clip : Export :=
      { jobId := r.job.id
        outputName := r.job.outputName
        outputPath := r.output.text
        accessUrl := accessUrl scene.pool.settings.publicBaseUrl r.job.outputName
        sizeInBytes := match entry with
          | .file file => file.content.length
          | _ => 0
        milliseconds := scene.world.now - r.started }
    scene.onPool fun p => (p.setStatus r.task .succeeded).finish r.task (.exported clip)

def reportText (report : Utf8.Bytes) : String :=
  if report.isEmpty then "Unknown error"
  else
    let cs := (Utf8.decodeReplacing report).toList
    String.ofList (cs.drop (cs.length - Settings.reportLength))

/-- The engine has ended and its report is complete. -/
def conclude (scene : Scene) (r : Render) (process : Engine.Process) : Scene :=
  let code := process.exit.getD 0
  -- The mark counts more than what the engine came to.
  if scene.pool.flagged.contains r.job.id then scene.failHolding r (.reported .cancelledByCaller)
  else if code ≠ 0 then
    scene.failHolding r (.reported (.engineExit code (reportText process.script.report)))
  else
    match scene.publish r with
    | .error failure => scene.failHolding r failure
    | .ok files => { scene with world := { scene.world with files := files } }.succeed r

def timeOut (scene : Scene) (r : Render) : Scene :=
  scene.failHolding r (.reported (.timeout scene.pool.settings.renderTimeout))

end ClipRender.Rendering.Scene
