import ClipRender.Edit.EditSpec
import ClipRender.Timing.Timestamp

set_option autoImplicit false

/-!
What the engine reads of the source: where it starts and for how long, after trimming.
-/

namespace ClipRender

structure TimeRange where
  seekSeconds : Binary64
  durationSeconds : Binary64
deriving DecidableEq

namespace TimeRange

/-- The moment with its start moved later and its end moved earlier by the trims. -/
def ofMoment (moment : Moment) (spec : EditSpec) : Except ExportError TimeRange :=
  let start := moment.startTime + spec.trimStart
  let finish := moment.endTime + spec.trimEnd
  if Binary64.le finish start then .error (.emptyRange moment spec.trimStart spec.trimEnd)
  else .ok ⟨start, finish - start⟩

def seek (range : TimeRange) : Except Failure String := Timestamp.format range.seekSeconds

def duration (range : TimeRange) : Except Failure String := Timestamp.format range.durationSeconds

end TimeRange

end ClipRender
