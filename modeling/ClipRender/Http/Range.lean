import ClipRender.Decimal.Whole
import ClipRender.Http.Message

set_option autoImplicit false

/-!
The part of a file that a request asks for. Of what a request lists, spans that touch or overlap are
joined; a list that is left with several spans is not served in parts.
-/

namespace ClipRender.Http.Range

/-- From one byte up to before another, as written. -/
structure Listed where
  start : Int
  stop : Int
deriving DecidableEq

structure Span where
  start : Nat
  stop : Nat
deriving DecidableEq

/-- What `a-`, `a-b` or `-n` lists of a file of the given size; other parts list nothing. -/
def listed? (size : Nat) (part : List Char) : Option Listed :=
  match part.dropWhile (· ≠ '-') with
  | [] => none
  | _ :: rest =>
    let first := Text.trim Text.isBlank (part.takeWhile (· ≠ '-'))
    let last := Text.trim Text.isBlank rest
    if first.isEmpty then
      (Decimal.whole? last).map fun (count : Int) =>
        ⟨if size < count then 0 else size - count, size⟩
    else
      match Decimal.whole? first with
      | none => none
      | some start =>
        if last.isEmpty then some ⟨start, size⟩
        else
          (Decimal.whole? last).map fun (last : Int) =>
            ⟨start, if last < size then last + 1 else size⟩

def commaParts : List Char → List (List Char)
  | [] => [[]]
  | c :: rest =>
    if c = ',' then [] :: commaParts rest
    else
      match commaParts rest with
      | [] => [[c]]
      | first :: more => (c :: first) :: more

/-- How many parts a list may have to be looked at. -/
def partLimit : Nat := 100

def malformed (reason : String) : Response := Response.text 400 reason

def unsatisfiable (size : Nat) : Response :=
  (Response.text 416 "").withHeader "content-range" ("bytes */" ++ toString size)

/-- Joins a span to those before it, of which the first is the one that ends last. -/
def join (before : List Span) (span : Span) : List Span :=
  match before with
  | [] => [span]
  | latest :: more =>
    if latest.stop < span.start then span :: before
    else ⟨latest.start, max latest.stop span.stop⟩ :: more

/-- Spans that neither touch nor overlap, last one first. -/
def merged (spans : List Span) : List Span :=
  (spans.mergeSort fun a b => a.start ≤ b.start).foldl join []

def spans (size : Nat) (listed : List Listed) : Except Response (List Span) :=
  if listed.isEmpty then .error (malformed "Range header: range must be requested")
  else if listed.any fun a => a.start < 0 || size ≤ a.start then .error (unsatisfiable size)
  else if listed.any fun a => a.stop ≤ a.start then
    .error (malformed "Range header: start must be less than end")
  else .ok (merged (listed.map fun a => ⟨a.start.toNat, a.stop.toNat⟩))

/-- The one span that a header asks for, or the response to a header that cannot be met. A list of
too many parts, or one of several spans, asks for the file as a whole. -/
def read (size : Nat) (header : String) : Except Response (Option Span) :=
  match header.toList.dropWhile (· ≠ '=') with
  | [] => .error (malformed "Malformed range header.")
  | _ :: spec =>
    let unit := Text.trim Text.isBlank (header.toList.takeWhile (· ≠ '='))
    let parts := commaParts spec
    if Text.lower (String.ofList unit) ≠ "bytes" then
      .error (malformed "Only support bytes range")
    else if partLimit < parts.length then .ok none
    else
      (spans size (parts.filterMap (listed? size))).map fun
        | [span] => some span
        | _ => none

end ClipRender.Http.Range
