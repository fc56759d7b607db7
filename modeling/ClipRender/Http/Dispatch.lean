import ClipRender.Access
import ClipRender.Http.Body
import ClipRender.Http.CrossOrigin
import ClipRender.Http.Download
import ClipRender.Http.Route
import ClipRender.Rendering.Pool

set_option autoImplicit false

/-!
What a request asks of the service: an answer at once, a clip to be rendered or a job to be
cancelled, and the response once that is done.
-/

namespace ClipRender.Http

structure Surroundings where
  settings : Except Failure Settings
  files : Files.Tree
  programDirectory : String
  /-- How many engines work, if the service is up. -/
  activeRenders : Option Nat

inductive Action where
  | respond (response : Response)
  | render (order : Rendering.Order)
  | cancel (jobId : String)

namespace Dispatch

def keyHeader : String := "X-Clipper-API-Key"

def keyRefusal (reason : String) : Response :=
  (Response.refusal 401 (reason ++ " API key")).withHeader "www-authenticate" keyHeader

/-- The response to a caller who may not start or cancel renders; none to one who may. -/
def guard (settings : Settings) (request : Request) : Option Response :=
  let provided := request.header? (Text.lower keyHeader)
  match settings.apiKey with
  | none => none
  | some expected =>
    if expected.isEmpty || Access.keyMatches provided expected then none
    else if (provided.getD "").isEmpty then some (keyRefusal "Missing")
    else some (keyRefusal "Invalid")

def notUp : Response := Response.refusal 503 "Render invoker not initialized"

def obstacle (around : Surroundings) (request : Request) : Option Response :=
  if around.activeRenders.isNone then some notUp
  else
    match around.settings with
    | .error failure => some (Response.crash failure)
    | .ok settings => guard settings request

def invalidBody (issues : List Validation.Issue) : Response :=
  Response.error 400 .invalidEditSpec (Validation.issuesText issues)

def orderOf (request : ExportRequest) : Rendering.Order :=
  ⟨some request.sourceRef, request.moment, request.editSpec, request.jobId⟩

/-- A body that cannot be read is refused before all else, and one that reads but is no export
request after all else. -/
def exportClip (around : Surroundings) (request : Request) : Action :=
  match Body.read request with
  | .error response => .respond response
  | .ok content =>
    match obstacle around request with
    | some response => .respond response
    | none =>
      match Body.exportRequest content with
      | .faulty first more => .respond (invalidBody (first :: more))
      | .valid exportRequest => .render (orderOf exportRequest)

def cancelExport (around : Surroundings) (request : Request) (jobId : String) : Action :=
  match obstacle around request with
  | some response => .respond response
  | none => .cancel jobId

/-- Whether a program can be started; a name with a slash is taken as a path. -/
def isProgram (around : Surroundings) (name : String) : Bool :=
  let path := if name.toList.contains '/' then name else around.programDirectory ++ "/" ++ name
  match around.files.status (.ofText path) with
  | .ok (.file file) => file.executable
  | _ => false

def health (around : Surroundings) (settings : Settings) : Response :=
  Response.json 200 (.object
    [("ok", .bool true), ("ffmpeg", .bool (isProgram around settings.enginePath)),
     ("activeRenders", .integer (around.activeRenders.getD 0)),
     ("storage", .string "Local filesystem")])

def root (settings : Settings) : Response :=
  Response.json 200 (.object
    [("service", .string settings.appName), ("version", .string "1.0.0"),
     ("status", .string "running"), ("storage", .string "Local disk -> browser IndexedDB"),
     ("docs", .string "/docs")])

def withSettings (around : Surroundings) (respond : Settings → Response) : Action :=
  match around.settings with
  | .ok settings => .respond (respond settings)
  | .error failure => .respond (Response.crash failure)

def follow (around : Surroundings) (request : Request) : Route → Action
  | .health => withSettings around (health around)
  | .exportClip => exportClip around request
  | .cancelExport jobId => cancelExport around request jobId
  | .download name =>
    .respond (Download.respond around.files around.settings name (request.header? "range"))
  | .root => withSettings around root

def redirect : Response := ⟨307, [], .text "", none⟩

def wrongMethod (route : Route) : Response :=
  (Response.refusal 405 "Method Not Allowed").withHeader "allow" route.method

def action (around : Surroundings) (request : Request) : Action :=
  match CrossOrigin.preflight? request with
  | some response => .respond response
  | none =>
    match Route.ofPath? request.path with
    | some route =>
      if request.method = route.method then follow around request route
      else .respond (wrongMethod route)
    | none =>
      .respond (if Route.redirects request.path then redirect else Response.refusal 404 "Not Found")

def outcomeResponse (jobId : String) : Rendering.Outcome → Response
  | .exported clip =>
    Response.json 200 (.object
      [("outputName", .string clip.outputName), ("accessURL", .string clip.accessUrl)])
  | .cancelled true =>
    Response.json 200 (.object [("jobId", .string jobId), ("cancelled", .bool true)])
  | .cancelled false => Response.refusal 404 ("No running render with jobId " ++ jobId)
  | .failed failure => Response.ofFailure failure

end Dispatch

end ClipRender.Http
