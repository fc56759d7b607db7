import ClipRender.Edit.Color
import ClipRender.Edit.EditSpec
import ClipRender.Filter.Speed

set_option autoImplicit false

/-!
The filters of a whole edit. The video is cropped first, so that nothing is spent on what is cut
away, then coloured, then timed, and texts are drawn last, on the frame as it will be seen.
-/

namespace ClipRender.Filter

structure Graph where
  video : List Node
  audio : List Node
deriving DecidableEq

namespace Graph

def isEmpty (graph : Graph) : Bool := graph.video.isEmpty && graph.audio.isEmpty

def chain? (nodes : List Node) : Option String :=
  if nodes.isEmpty then none else some (String.intercalate "," (nodes.map Node.render))

def videoFilter? (graph : Graph) : Option String := chain? graph.video

def audioFilter? (graph : Graph) : Option String := chain? graph.audio

def cropFor (ratio : Option String) : Except Failure (Option Node) :=
  (Ratio.read ratio).map fun ratio => ratio.map Node.crop

def nonZero (x : Binary64) : Option Binary64 := if Binary64.eq x Binary64.zero then none else some x

def colorFor (spec : EditSpec) : Option ColorChange :=
  let change : ColorChange :=
    ⟨nonZero spec.brightness, (nonZero spec.contrast).map (Binary64.one + ·),
     (nonZero spec.saturation).map (Binary64.one + ·)⟩
  if change.brightness.isNone && change.contrast.isNone && change.saturation.isNone then none
  else some change

def boldBorderWidth : Int := 2

def enableFor (overlay : TextOverlay) : Option String :=
  overlay.window?.map fun (start, finish) =>
    "between(t," ++ numberText start ++ "," ++ numberText finish ++ ")"

def drawnText (fontFile : Option String) (overlay : TextOverlay) : DrawnText where
  text := overlay.text
  fontSize := overlay.fontSize
  fontColor := Color.engineText overlay.color
  x := match overlay.x with
    | some x => "w*" ++ numberText x
    | none => "(w-text_w)/2"
  y := match overlay.y with
    | some y => "h*" ++ numberText y
    | none => "h*0.85"
  enable := enableFor overlay
  borderWidth := if overlay.bold then boldBorderWidth else 0
  fontFile := fontFile

def ofSpec (fontFile : Option String) (spec : EditSpec) : Except Failure Graph := do
  -- The crop is read first: of two faults it is the one that is told.
  let crop ← cropFor (some spec.aspectRatio.name)
  let speed ← (SpeedChange.ofSpeed spec.speed).mapError .reported
  return {
    video :=
      crop.toList ++ ((colorFor spec).map Node.color).toList
        ++ (speed.map fun change => Node.timestamps change.factor).toList
        ++ spec.textOverlays.map fun overlay => Node.drawText (drawnText fontFile overlay)
    audio := (speed.map fun change => Node.audioTempo change.tempo).toList
  }

def warnings (spec : EditSpec) : List String :=
  match SpeedChange.ofSpeed spec.speed with
  | .ok (some change) => (change.warning? spec.speed).toList
  | _ => []

end Graph

end ClipRender.Filter
