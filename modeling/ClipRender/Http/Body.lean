import ClipRender.Edit.ExportRequest
import ClipRender.Http.Message
import ClipRender.Json.Encoding
import ClipRender.Json.Reader
import ClipRender.Text.Blank

set_option autoImplicit false

/-!
The body of a request as data.
-/

namespace ClipRender.Http.Body

inductive Content where
  | nothing
  | data (value : Json.Value)
  /-- Something that is not announced as JSON. -/
  | unread

def mediaType (header : String) : String :=
  Text.lower (Text.strip (String.ofList (header.toList.takeWhile (· ≠ ';'))))

def isJson (header : String) : Bool :=
  let type := (mediaType header).toList
  let subtype := type.drop "application/".length
  type.count '/' = 1 && "application/".toList.isPrefixOf type
    && (subtype = "json".toList || "+json".toList.isSuffixOf subtype)

def unparsable : Response := Response.refusal 400 "There was an error parsing the body"

def read (request : Request) : Except Response Content :=
  if request.body.isEmpty then .ok .nothing
  else if !((request.header? "content-type").any isJson) then .ok .unread
  else
    match Json.Encoding.text? request.body with
    | none => .error unparsable
    | some s =>
      match Json.read s with
      | .ok v => .ok (.data v)
      | .error (.syntaxAt position) =>
        .error (Response.error 400 .invalidEditSpec (toString position ++ ": JSON decode error"))
      | .error _ => .error unparsable

def exportRequest : Content → Validation.Checked ExportRequest
  | .nothing => .fail .missing
  | .unread => .fail (.notRecord .body "ExportClipRequest")
  | .data v => ExportRequest.check .body v

end ClipRender.Http.Body
