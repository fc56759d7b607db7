import ClipRender.Edit.AspectRatio
import ClipRender.Edit.TextOverlay

set_option autoImplicit false

/-!
All edits of one clip, and how they are read from untyped data and written back.
-/

namespace ClipRender

structure EditSpec where
  aspectRatio : AspectRatio
  brightness : Binary64
  contrast : Binary64
  saturation : Binary64
  speed : Binary64
  /-- Seconds after the start of the moment. -/
  trimStart : Binary64
  /-- Seconds from the end of the moment, negative or zero. -/
  trimEnd : Binary64
  textOverlays : List TextOverlay
  /-- The free crop box belongs to the editor alone; no filter uses it. -/
  cropX : Binary64
  cropY : Binary64
  cropW : Binary64
  cropH : Binary64
deriving DecidableEq

namespace EditSpec

open Validation

def repeated? : List String → List String → Option String
  | _, [] => none
  | seen, id :: rest => if seen.contains id then some id else repeated? (id :: seen) rest

def checkOverlayIds (spec : EditSpec) : Checked EditSpec :=
  match repeated? [] (spec.textOverlays.map (·.id)) with
  | some id => .fail (.repeatedOverlay id)
  | none => .valid spec

def adjustment : Json.Value → Checked Binary64 := boundedNumber [.atLeast (-1), .atMost 1]

def position : Json.Value → Checked Binary64 := boundedNumber [.atLeast 0, .atMost 1]

def extent : Json.Value → Checked Binary64 := boundedNumber [.above 0, .atMost 1]

def zeroIfAbsent (name : FieldName) (check : Json.Value → Checked Binary64) (fields : Json.Fields) :
    Checked Binary64 :=
  fieldOr name (.valid Binary64.zero) check fields

def oneIfAbsent (name : FieldName) (check : Json.Value → Checked Binary64) (fields : Json.Fields) :
    Checked Binary64 :=
  fieldOr name (.valid Binary64.one) check fields

def checkFields (origin : Origin) (fields : Json.Fields) : Checked EditSpec :=
  EditSpec.mk
    <$> fieldOr ⟨"aspectRatio", "aspect_ratio"⟩ (.valid .uncropped) AspectRatio.check fields
    <*> zeroIfAbsent (.word "brightness") adjustment fields
    <*> zeroIfAbsent (.word "contrast") adjustment fields
    <*> zeroIfAbsent (.word "saturation") adjustment fields
    <*> oneIfAbsent (.word "speed") (boundedNumber [.above 0]) fields
    <*> zeroIfAbsent ⟨"trimStart", "trim_start"⟩ (boundedNumber [.atLeast 0]) fields
    <*> zeroIfAbsent ⟨"trimEnd", "trim_end"⟩ (boundedNumber [.atMost 0]) fields
    <*> fieldOr ⟨"textOverlays", "text_overlays"⟩ (.valid []) (list (TextOverlay.check origin))
      fields
    <*> zeroIfAbsent ⟨"cropX", "crop_x"⟩ position fields
    <*> zeroIfAbsent ⟨"cropY", "crop_y"⟩ position fields
    <*> oneIfAbsent ⟨"cropW", "crop_w"⟩ extent fields
    <*> oneIfAbsent ⟨"cropH", "crop_h"⟩ extent fields

def check (origin : Origin) : Json.Value → Checked EditSpec :=
  record origin "EditSpec" fun fields => (checkFields origin fields).andThen checkOverlayIds

/-- The spec that untyped edit data gives; blank data stands for no edits. -/
def ofData (data : Json.Value) : Checked EditSpec :=
  check .program (if data.isBlank then .object [] else data)

def untouched : EditSpec where
  aspectRatio := .uncropped
  brightness := Binary64.zero
  contrast := Binary64.zero
  saturation := Binary64.zero
  speed := Binary64.one
  trimStart := Binary64.zero
  trimEnd := Binary64.zero
  textOverlays := []
  cropX := Binary64.zero
  cropY := Binary64.zero
  cropW := Binary64.one
  cropH := Binary64.one

def toJson (spec : EditSpec) : Json.Value :=
  .object
    [("aspectRatio", .string spec.aspectRatio.name), ("brightness", .number spec.brightness),
     ("contrast", .number spec.contrast), ("saturation", .number spec.saturation),
     ("speed", .number spec.speed), ("trimStart", .number spec.trimStart),
     ("trimEnd", .number spec.trimEnd),
     ("textOverlays", .array (spec.textOverlays.map TextOverlay.toJson)),
     ("cropX", .number spec.cropX), ("cropY", .number spec.cropY), ("cropW", .number spec.cropW),
     ("cropH", .number spec.cropH)]

end EditSpec

end ClipRender
