import ClipRender.Filter.Crop
import ClipRender.Filter.Number
import ClipRender.Filter.Quoting

set_option autoImplicit false

/-!
The filters of the engine that edits turn into, and their text.
-/

namespace ClipRender.Filter

/-- Changes of colour; what is unset stays as it is. A contrast or saturation of 1 is neutral. -/
structure ColorChange where
  brightness : Option Binary64
  contrast : Option Binary64
  saturation : Option Binary64
deriving DecidableEq

/-- A text on the frame. Position and window are expressions of the engine. -/
structure DrawnText where
  /-- As the user wrote it. -/
  text : String
  fontSize : Int
  fontColor : String
  x : String
  y : String
  enable : Option String
  borderWidth : Int
  fontFile : Option String
deriving DecidableEq

inductive Node where
  | crop (ratio : Ratio)
  | color (change : ColorChange)
  | timestamps (factor : Binary64)
  | audioTempo (tempo : Binary64)
  | drawText (drawn : DrawnText)
deriving DecidableEq

namespace ColorChange

def options (change : ColorChange) : List String :=
  (change.brightness.map fun b => "brightness=" ++ numberText b).toList
    ++ (change.contrast.map fun c => "contrast=" ++ Decimal.fixed 4 c).toList
    ++ (change.saturation.map fun s => "saturation=" ++ Decimal.fixed 4 s).toList

end ColorChange

namespace DrawnText

/-- Empty text stands for nothing set. -/
def given (s : Option String) : Option String := s.filter (!·.isEmpty)

def borderOptions (drawn : DrawnText) : List String :=
  if drawn.borderWidth > 0 then
    ["borderw=" ++ toString drawn.borderWidth, "bordercolor=" ++ drawn.fontColor]
  else []

/-- The user's text is drawn as it stands, without expansion. -/
def options (drawn : DrawnText) : List String :=
  ((given drawn.fontFile).map fun file => "fontfile=" ++ embedText file).toList
    ++ ["text=" ++ embedText drawn.text, "expansion=none", "fontsize=" ++ toString drawn.fontSize,
        "fontcolor=" ++ drawn.fontColor, "x=" ++ drawn.x, "y=" ++ drawn.y]
    ++ drawn.borderOptions
    ++ ((given drawn.enable).map fun window => "enable='" ++ window ++ "'").toList

end DrawnText

namespace Node

def name : Node → String
  | .crop _ => "crop"
  | .color _ => "eq"
  | .timestamps _ => "setpts"
  | .audioTempo _ => "atempo"
  | .drawText _ => "drawtext"

def withOptions (name : String) (options : List String) : String :=
  name ++ "=" ++ String.intercalate ":" options

def render : Node → String
  | .crop ratio => Crop.render ratio
  | .color change => withOptions "eq" change.options
  | .timestamps factor => "setpts=" ++ Decimal.fixed 6 factor ++ "*PTS"
  | .audioTempo tempo => "atempo=" ++ numberText tempo
  | .drawText drawn => withOptions "drawtext" drawn.options

end Node

end ClipRender.Filter
