import ClipRender.Edit.EditSpec
import ClipRender.Edit.Moment

set_option autoImplicit false

/-!
A request to export one clip.
-/

namespace ClipRender

structure ExportRequest where
  sourceRef : String
  moment : Moment
  editSpec : EditSpec
  /-- Chosen by the caller who may want to cancel the job. -/
  jobId : Option String
deriving DecidableEq

namespace ExportRequest

open Validation

def isJobIdChar (c : Char) : Bool := c.isAlphanum || c = '_' || c = '-'

def isJobId (s : String) : Bool :=
  s.toList.all isJobIdChar && 1 ≤ s.length && s.length ≤ 64

def jobIdShape : String := "^[A-Za-z0-9_-]\x7b1,64\x7d$"

def checkJobId : Json.Value → Checked (Option String) :=
  optional fun v => (text v).ensure isJobId fun _ => .pattern jobIdShape

def check (origin : Origin) : Json.Value → Checked ExportRequest :=
  record origin "ExportClipRequest" fun fields =>
    ExportRequest.mk
      <$> field ⟨"sourceRef", "source_ref"⟩ nonEmptyText fields
      <*> field (.word "moment") (Moment.check origin) fields
      <*> fieldOr ⟨"editSpec", "edit_spec"⟩ (.valid EditSpec.untouched) (EditSpec.check origin)
        fields
      <*> fieldOr ⟨"jobId", "job_id"⟩ (.valid none) checkJobId fields

def toJson (request : ExportRequest) : Json.Value :=
  .object
    [("sourceRef", .string request.sourceRef), ("moment", request.moment.toJson),
     ("editSpec", request.editSpec.toJson),
     ("jobId", match request.jobId with | some id => .string id | none => .null)]

end ExportRequest

end ClipRender
