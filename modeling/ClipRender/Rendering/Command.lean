import ClipRender.Filter.Graph
import ClipRender.Rendering.Job
import ClipRender.Settings.Basic
import ClipRender.Timing.TimeRange

set_option autoImplicit false

/-!
The arguments with which the engine is started.
-/

namespace ClipRender.Rendering

def flagged (flag : String) : Option String → List String
  | some value => [flag, value]
  | none => []

/-- The program and its arguments. The container is named, because the name of an unfinished output
does not tell it, and its index goes to the front, so that playing can start before all has
arrived. -/
def command (settings : Settings) (job : Job) (output : String) : Except Failure (List String) := do
  let range ← (TimeRange.ofMoment job.moment job.spec).mapError Failure.reported
  let graph ← Filter.Graph.ofSpec settings.fontFile job.spec
  let seek ← range.seek
  let duration ← range.duration
  return [settings.enginePath, "-y", "-hide_banner", "-nostdin", "-nostats", "-ss", seek, "-i",
      job.source, "-t", duration]
    ++ flagged "-vf" graph.videoFilter? ++ flagged "-af" graph.audioFilter?
    ++ ["-c:v", "libx264", "-preset", Settings.encoderPreset,
        "-crf", toString Settings.encoderQuality, "-pix_fmt", "yuv420p",
        "-c:a", Settings.audioCodec, "-b:a", Settings.audioBitrate,
        "-movflags", "+faststart", "-f", "mp4", output]

end ClipRender.Rendering
