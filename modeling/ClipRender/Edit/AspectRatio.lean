import ClipRender.Validation.Scalar

set_option autoImplicit false

/-!
The aspect ratios that a clip can be cropped to.
-/

namespace ClipRender

inductive AspectRatio where
  | portrait
  | landscape
  | square
  | classic
  /-- The frame stays as it is. -/
  | uncropped
deriving DecidableEq

namespace AspectRatio

open Validation

def all : List AspectRatio := [.portrait, .landscape, .square, .classic, .uncropped]

def name : AspectRatio → String
  | .portrait => "9:16"
  | .landscape => "16:9"
  | .square => "1:1"
  | .classic => "4:3"
  | .uncropped => "original"

def ofName? (s : String) : Option AspectRatio := all.find? (·.name = s)

def check (v : Json.Value) : Checked AspectRatio :=
  match v with
  | .string s =>
    match ofName? s with
    | some ratio => .valid ratio
    | none => .fail (.notChoice (all.map name))
  | _ => .fail (.notChoice (all.map name))

end AspectRatio

end ClipRender
