import ClipRender.Http.Message
import ClipRender.Settings.Basic

set_option autoImplicit false

/-!
Pages of other origins: which of them may call, and how browsers are told.
-/

namespace ClipRender.Http.CrossOrigin

/-- The origins are fixed when the service is set up, whatever is set later. -/
def allowedOrigins : List String := Settings.defaults.corsOrigins

def isAllowed (origin : String) : Bool := allowedOrigins.contains origin

def methods : List String := ["DELETE", "GET", "HEAD", "OPTIONS", "PATCH", "POST", "PUT",
  "QUERY"]

def mark (origin : String) (response : Response) : Response :=
  let response := response.withHeader "access-control-allow-credentials" "true"
  if isAllowed origin then response.withHeader "access-control-allow-origin" origin else response

/-- The answer to a browser that asks before it calls. A call into a private network, for which the
browser asks in so many words, is not allowed. -/
def preflight (origin method : String) (intoPrivate : Bool) : Response :=
  let faults := (if isAllowed origin then [] else ["origin"])
    ++ (if methods.contains method then [] else ["method"])
    ++ (if intoPrivate then ["private-network"] else [])
  mark origin (if faults.isEmpty then Response.text 200 "OK"
    else Response.text 400 ("Disallowed CORS " ++ String.intercalate ", " faults))

def preflight? (request : Request) : Option Response :=
  match request.header? "origin", request.header? "access-control-request-method" with
  | some origin, some method =>
    let intoPrivate := (request.header? "access-control-request-private-network").isSome
    if request.method = "OPTIONS" then some (preflight origin method intoPrivate) else none
  | _, _ => none

/-- What goes out to the caller; the page for a failure that nobody plans for goes out as it is. -/
def finish (request : Request) (response : Response) : Response :=
  match response.cause, request.header? "origin" with
  | none, some origin => mark origin response
  | _, _ => response

end ClipRender.Http.CrossOrigin
