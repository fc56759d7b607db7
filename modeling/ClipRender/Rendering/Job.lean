import ClipRender.Edit.EditSpec
import ClipRender.Edit.Moment
import ClipRender.ExportError
import ClipRender.Files.Path

set_option autoImplicit false

/-!
One clip to be rendered, and how far it has come.
-/

namespace ClipRender.Rendering

structure Order where
  reference : Option String
  moment : Moment
  spec : EditSpec
  jobId : Option String
deriving DecidableEq

structure Job where
  id : String
  source : String
  moment : Moment
  spec : EditSpec
  outputName : String
deriving DecidableEq

inductive JobStatus where
  | pending
  | running
  | succeeded
  | failed (kind : ErrorKind) (detail : String)
deriving DecidableEq

def JobStatus.name : JobStatus → String
  | .pending => "pending"
  | .running => "running"
  | .succeeded => "succeeded"
  | .failed .. => "failed"

end ClipRender.Rendering
