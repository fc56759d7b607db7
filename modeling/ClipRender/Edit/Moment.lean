import ClipRender.Validation.Record
import ClipRender.Validation.Scalar

set_option autoImplicit false

/-!
The stretch of the source that a clip is cut from, in seconds.
-/

namespace ClipRender

structure Moment where
  startTime : Binary64
  endTime : Binary64
deriving DecidableEq

namespace Moment

open Validation

def checkOrder (moment : Moment) : Checked Moment :=
  if Binary64.le moment.endTime moment.startTime then
    .fail (.momentOrder moment.endTime moment.startTime)
  else .valid moment

def checkFields (fields : Json.Fields) : Checked Moment :=
  Moment.mk
    <$> field ⟨"startTime", "start_time"⟩ (boundedNumber [.atLeast 0]) fields
    <*> field ⟨"endTime", "end_time"⟩ (boundedNumber [.above 0]) fields

def check (origin : Origin) : Json.Value → Checked Moment :=
  record origin "Moment" fun fields => (checkFields fields).andThen checkOrder

def ofData (data : Json.Value) : Checked Moment := check .program data

def duration (moment : Moment) : Binary64 := moment.endTime - moment.startTime

def toJson (moment : Moment) : Json.Value :=
  .object [("startTime", .number moment.startTime), ("endTime", .number moment.endTime)]

end Moment

end ClipRender
