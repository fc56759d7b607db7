import ClipRender.Decimal.Fixed
import ClipRender.Edit.Moment
import ClipRender.Text.Quoted

set_option autoImplicit false

/-!
Why an export fails, each cause with the kind under which a caller is told and the detail text.
-/

namespace ClipRender

inductive ErrorKind where
  | invalidEditSpec
  | sourceNotFound
  | engineTimeout
  | engineFailure
  | internalInvocation
  | renderCancelled
deriving DecidableEq

def ErrorKind.name : ErrorKind → String
  | .invalidEditSpec => "InvalidEditSpec"
  | .sourceNotFound => "SourceNotFound"
  | .engineTimeout => "EngineTimeout"
  | .engineFailure => "EngineFailure"
  | .internalInvocation => "InternalInvocationError"
  | .renderCancelled => "RenderCancelled"

def ErrorKind.status : ErrorKind → Nat
  | .invalidEditSpec => 400
  | .sourceNotFound => 404
  | .engineTimeout => 504
  | .engineFailure => 502
  | .internalInvocation => 500
  | .renderCancelled => 409

inductive StartFault where
  | notFound
  | denied
deriving DecidableEq

inductive ExportError where
  | invalidData (issues : List Validation.Issue)
  | emptyRange (moment : Moment) (trimStart trimEnd : Binary64)
  | malformedRatio (given : Option String)
  | ratioNotPositive (given : String)
  | speedNotPositive (speed : Binary64)
  | speedTooHigh (speed : Binary64)
  | jobInFlight (id : String)
  | invalidReference (given : Option String)
  | sourceMissing
  | cannotStart (program : String) (fault : StartFault)
  | timeout (budget : Binary64)
  /-- The engine ended with a code other than 0; `report` is what it wrote last. -/
  | engineExit (code : Int) (report : String)
  | noOutput
  | cancelledInQueue
  | cancelledByCaller
deriving DecidableEq

namespace ExportError

def kind : ExportError → ErrorKind
  | .invalidData _ => .invalidEditSpec
  | .emptyRange .. => .invalidEditSpec
  | .malformedRatio _ => .invalidEditSpec
  | .ratioNotPositive _ => .invalidEditSpec
  | .speedNotPositive _ => .invalidEditSpec
  | .speedTooHigh _ => .invalidEditSpec
  | .jobInFlight _ => .invalidEditSpec
  | .invalidReference _ => .sourceNotFound
  | .sourceMissing => .sourceNotFound
  | .cannotStart .. => .internalInvocation
  | .timeout _ => .engineTimeout
  | .engineExit .. => .engineFailure
  | .noOutput => .engineFailure
  | .cancelledInQueue => .renderCancelled
  | .cancelledByCaller => .renderCancelled

def emptyRangeText (moment : Moment) (trimStart trimEnd : Binary64) : String :=
  "Trim leaves an empty range: start=" ++ Decimal.fixed 3 (moment.startTime + trimStart)
    ++ "s end=" ++ Decimal.fixed 3 (moment.endTime + trimEnd)
    ++ "s (moment " ++ moment.startTime.text ++ "-" ++ moment.endTime.text
    ++ "s, trimStart=" ++ trimStart.text ++ ", trimEnd=" ++ trimEnd.text ++ ")"

def startFaultText (program : String) : StartFault → String
  | .notFound => "[Errno 2] No such file or directory: " ++ Text.quoted program
  | .denied => "[Errno 13] Permission denied: " ++ Text.quoted program

def givenText : Option String → String
  | some s => Text.quoted s
  | none => "None"

def detail : ExportError → String
  | .invalidData issues => Validation.issuesText issues
  | .emptyRange moment trimStart trimEnd => emptyRangeText moment trimStart trimEnd
  | .malformedRatio given => "Malformed aspect ratio: " ++ givenText given
  | .ratioNotPositive given => "Aspect ratio sides must be positive: " ++ Text.quoted given
  | .speedNotPositive speed => "Speed must be positive, got " ++ speed.text
  | .speedTooHigh speed => "Speed " ++ speed.text ++ " is too high to render"
  | .jobInFlight id => "jobId " ++ Text.quoted id ++ " is already rendering"
  | .invalidReference given => "Invalid source reference: " ++ givenText given
  | .sourceMissing => "Source video not found on server. Please re-download the video."
  | .cannotStart program fault =>
    "Could not start " ++ program ++ ": " ++ startFaultText program fault
  | .timeout budget => "Render exceeded the " ++ Decimal.fixed 0 budget ++ "s time budget"
  | .engineExit _ report => "FFmpeg failed: " ++ report
  | .noOutput => "Render failed: output file not created"
  | .cancelledInQueue => "Render cancelled before it started"
  | .cancelledByCaller => "Render cancelled by caller"

end ExportError

end ClipRender
