import ClipRender.Files.Tree
import ClipRender.Http.Range
import ClipRender.Settings.Basic

set_option autoImplicit false

/-!
Finished clips for download. Only names of the shape that clips have are looked up, so that no
unfinished output is ever served.
-/

namespace ClipRender.Http.Download

def isFirst (c : Char) : Bool := c.isAlphanum || c = '_' || c = '-'

def isNext (c : Char) : Bool := isFirst c || c = '.'

def ending : List Char := ".mp4".toList

/-- A letter, digit, underscore or hyphen, then these and dots, and the ending. -/
def isClip (cs : List Char) : Bool :=
  match cs with
  | [] => false
  | first :: rest => isFirst first && ending.isSuffixOf rest && rest.all isNext

/-- A line break at the very end is not looked at. -/
def isClipName (name : String) : Bool :=
  let cs := name.toList
  isClip (if cs.getLast? = some '\n' then cs.dropLast else cs)

def notFound : Response := Response.refusal 404 "Export not found"

def video (status : Nat) (bytes : Utf8.Bytes) : Response :=
  ⟨status,
   [("content-type", "video/mp4"), ("accept-ranges", "bytes"),
    ("content-length", toString bytes.length)], .bytes bytes, none⟩

def part (content : Utf8.Bytes) (span : Range.Span) : Response :=
  (video 206 ((content.take span.stop).drop span.start)).withHeader "content-range"
    ("bytes " ++ toString span.start ++ "-" ++ toString (span.stop - 1) ++ "/"
      ++ toString content.length)

def serve (content : Utf8.Bytes) (range : Option String) : Response :=
  match range with
  | none => video 200 content
  | some header =>
    match Range.read content.length header with
    | .error response => response
    | .ok (some span) => part content span
    | .ok none => video 200 content

def lookUp (files : Files.Tree) (settings : Settings) (name : String) (range : Option String) :
    Response :=
  match files.file? ((Files.Path.ofText settings.outputDirectory).child name) with
  | .error fault => Response.crash (.file fault)
  | .ok none => notFound
  | .ok (some file) => serve file.content range

/-- The response to a request for a clip. A name of another shape is refused whatever is set. -/
def respond (files : Files.Tree) (settings : Except Failure Settings) (name : String)
    (range : Option String) : Response :=
  if !isClipName name then notFound
  else
    match settings with
    | .error failure => Response.crash failure
    | .ok settings => lookUp files settings name range

end ClipRender.Http.Download
