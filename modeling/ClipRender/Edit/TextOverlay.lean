import ClipRender.Edit.Color
import ClipRender.Validation.Record

set_option autoImplicit false

/-!
A text drawn on top of the clip, always or within a window of time.
-/

namespace ClipRender

structure TextOverlay where
  id : String
  text : String
  /-- Share of the frame's width; centred if unset. -/
  x : Option Binary64
  /-- Share of the frame's height; near the bottom if unset. -/
  y : Option Binary64
  fontSize : Int
  color : String
  startSec : Option Binary64
  endSec : Option Binary64
  bold : Bool
deriving DecidableEq

namespace TextOverlay

open Validation

def window? (overlay : TextOverlay) : Option (Binary64 × Binary64) :=
  match overlay.startSec, overlay.endSec with
  | some start, some finish => some (start, finish)
  | _, _ => none

def checkWindow (overlay : TextOverlay) : Checked TextOverlay :=
  match overlay.window? with
  | some (start, finish) =>
    if Binary64.le finish start then .fail (.windowOrder finish start) else .valid overlay
  | none => .valid overlay

def checkText (v : Json.Value) : Checked String :=
  (Validation.text v).ensure (fun s => !Text.isBlankText s) fun _ => .blankOverlayText

def share : Json.Value → Checked (Option Binary64) :=
  optional (boundedNumber [.atLeast 0, .atMost 1])

def instant : Json.Value → Checked (Option Binary64) := optional (boundedNumber [.atLeast 0])

def checkFields (fields : Json.Fields) : Checked TextOverlay :=
  TextOverlay.mk
    <$> field (.word "id") nonEmptyText fields
    <*> field (.word "text") checkText fields
    <*> fieldOr (.word "x") (.valid none) share fields
    <*> fieldOr (.word "y") (.valid none) share fields
    <*> fieldOr ⟨"fontSize", "font_size"⟩ (.valid 36) (integerAbove 0) fields
    <*> fieldOr (.word "color") (.valid "#FFFFFF") Color.check fields
    <*> fieldOr ⟨"startSec", "start_sec"⟩ (.valid none) instant fields
    <*> fieldOr ⟨"endSec", "end_sec"⟩ (.valid none) instant fields
    <*> fieldOr (.word "bold") (.valid false) flag fields

def check (origin : Origin) : Json.Value → Checked TextOverlay :=
  record origin "TextOverlay" fun fields => (checkFields fields).andThen checkWindow

def optionalNumber : Option Binary64 → Json.Value
  | some x => .number x
  | none => .null

def toJson (overlay : TextOverlay) : Json.Value :=
  .object
    [("id", .string overlay.id), ("text", .string overlay.text), ("x", optionalNumber overlay.x),
     ("y", optionalNumber overlay.y), ("fontSize", .integer overlay.fontSize),
     ("color", .string overlay.color), ("startSec", optionalNumber overlay.startSec),
     ("endSec", optionalNumber overlay.endSec), ("bold", .bool overlay.bold)]

end TextOverlay

end ClipRender
