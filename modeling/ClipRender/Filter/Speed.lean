import ClipRender.Filter.Node

set_option autoImplicit false

/-!
Playback speed: a factor for the video's timestamps and a tempo for the audio. The tempo keeps to
the range of one stage, so at extreme speeds the audio drifts from the video.
-/

namespace ClipRender.Filter

structure SpeedChange where
  factor : Binary64
  tempo : Binary64
deriving DecidableEq

namespace SpeedChange

def minTempo : Binary64 := Binary64.ofQuotient 1 2

def maxTempo : Binary64 := Binary64.ofNat 2

def tempoFor (speed : Binary64) : Binary64 := Binary64.min (Binary64.max speed minTempo) maxTempo

/-- Nothing changes at speed 1. A factor of which six places show only zeros would put all frames
at one time. -/
def ofSpeed (speed : Binary64) : Except ExportError (Option SpeedChange) :=
  if Binary64.le speed Binary64.zero then .error (.speedNotPositive speed)
  else if Binary64.eq speed Binary64.one then .ok none
  else
    -- A speed close to nothing makes the factor infinite, and nothing here refuses it.
    let factor := Binary64.one / speed
    if factor.roundedPlaces? 6 = some 0 then .error (.speedTooHigh speed)
    else .ok (some ⟨factor, tempoFor speed⟩)

def warning? (speed : Binary64) (change : SpeedChange) : Option String :=
  if Binary64.eq change.tempo speed then none
  else
    some ("Audio tempo " ++ speed.text ++ " outside [" ++ minTempo.text ++ ", " ++ maxTempo.text
      ++ "], clamped to " ++ change.tempo.text)

end SpeedChange

end ClipRender.Filter
