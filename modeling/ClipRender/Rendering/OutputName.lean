import ClipRender.Failure

set_option autoImplicit false

/-!
The name of a finished clip: the time in milliseconds and a random part, so that no two renders
collide.
-/

namespace ClipRender.Rendering

/-- The time is in seconds; `token` is random text in hexadecimal. -/
def outputName (now : Binary64) (token : String) : Except Failure String := do
  let milliseconds ← (now * Binary64.ofNat 1000).truncate.mapError Failure.noWhole
  return "clip_" ++ toString milliseconds ++ "_" ++ String.ofList (token.toList.take 8) ++ ".mp4"

def accessUrl (base name : String) : String :=
  String.ofList (base.toList.reverse.dropWhile (· = '/')).reverse ++ "/exports/" ++ name

end ClipRender.Rendering
