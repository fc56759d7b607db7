import ClipRender.Failure
import ClipRender.Json.Value
import ClipRender.Text.LetterCase
import ClipRender.Text.Utf8

set_option autoImplicit false

/-!
Requests and responses. Header names count in any case, and of several headers of one name the
first.
-/

namespace ClipRender.Http

structure Request where
  method : String
  /-- Without escapes. -/
  path : String
  headers : List (String × String)
  body : Utf8.Bytes

/-- Each byte of a header value is read as one character. -/
def Request.header? (request : Request) (name : String) : Option String :=
  (request.headers.find? fun h => Text.lower h.1 = name).map fun h => Utf8.latin1 (Utf8.encode h.2)

inductive Body where
  | json (value : Json.Value)
  | text (text : String)
  | bytes (bytes : Utf8.Bytes)

structure Response where
  status : Nat
  headers : List (String × String)
  body : Body
  /-- What went wrong behind a response that does not tell. -/
  cause : Option Failure

namespace Response

def json (status : Nat) (value : Json.Value) : Response :=
  ⟨status, [("content-type", "application/json")], .json value, none⟩

def text (status : Nat) (s : String) : Response :=
  ⟨status, [("content-type", "text/plain; charset=utf-8")], .text s, none⟩

def withHeader (response : Response) (name value : String) : Response :=
  { response with headers := response.headers ++ [(name, value)] }

def refusal (status : Nat) (reason : String) : Response :=
  json status (.object [("detail", .string reason)])

def error (status : Nat) (kind : ErrorKind) (detail : String) : Response :=
  json status (.object [("errorKind", .string kind.name), ("detail", .string detail)])

def ofError (error : ExportError) : Response :=
  Response.error error.kind.status error.kind error.detail

/-- The page for a failure that nobody plans for. -/
def crash (failure : Failure) : Response :=
  { text 500 "Internal Server Error" with cause := some failure }

def ofFailure : Failure → Response
  | .reported error => ofError error
  | failure => crash failure

end Response

end ClipRender.Http
