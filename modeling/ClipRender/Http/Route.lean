import ClipRender.Http.Message

set_option autoImplicit false

/-!
Which path leads where, and by which method.
-/

namespace ClipRender.Http

inductive Route where
  | health
  | exportClip
  | cancelExport (jobId : String)
  | download (name : String)
  | root
deriving DecidableEq

namespace Route

/-- A fixed path may have a line break behind it. -/
def isFixed (fixed path : String) : Bool := path = fixed || path = fixed ++ "\n"

def segmentAfter? (start path : String) : Option String :=
  if start.toList.isPrefixOf path.toList then
    let segment := path.toList.drop start.length
    if segment.isEmpty || segment.contains '/' then none else some (String.ofList segment)
  else none

def ofPath? (path : String) : Option Route :=
  if isFixed "/api/health" path then some .health
  else if isFixed "/api/export-clip" path then some .exportClip
  else
    match segmentAfter? "/api/export-clip/" path with
    | some jobId => some (.cancelExport jobId)
    | none =>
      match segmentAfter? "/exports/" path with
      | some name => some (.download name)
      | none => if isFixed "/" path then some .root else none

def method : Route → String
  | .health => "GET"
  | .exportClip => "POST"
  | .cancelExport _ => "DELETE"
  | .download _ => "GET"
  | .root => "GET"

def toggled (path : String) : String :=
  if path.toList.getLast? = some '/' then
    String.ofList (path.toList.reverse.dropWhile (· = '/')).reverse
  else path ++ "/"

def referencePages : List String := ["/openapi.json", "/docs", "/docs/oauth2-redirect", "/redoc"]

def redirects (path : String) : Bool :=
  path ≠ "/" && ((ofPath? (toggled path)).isSome
    || referencePages.any fun page => isFixed page (toggled path))

end Route

end ClipRender.Http
