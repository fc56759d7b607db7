import ClipRender.Decimal.Shortest

set_option autoImplicit false

/-!
What can be wrong with untyped data, where, and how a caller is told.
-/

namespace ClipRender.Validation

/-- Who hands the data in: a caller inside the program, or the body of a request. -/
inductive Origin where
  | program
  | body
deriving DecidableEq

inductive Bound where
  | atLeast (limit : Int)
  | above (limit : Int)
  | atMost (limit : Int)
deriving DecidableEq

inductive Fault where
  | missing
  | unknownKey
  | notRecord (origin : Origin) (model : String)
  | notList
  | notChoice (choices : List String)
  | notText
  | emptyText
  | pattern (shape : String)
  | notNumber
  | numberText
  | notFinite
  | bound (broken : Bound)
  | notInteger
  | integerText
  | fractional
  | integerSize
  | notFlag
  | flagText
  | blankOverlayText
  | windowOrder (finish start : Binary64)
  | repeatedOverlay (id : String)
  | momentOrder (finish start : Binary64)
deriving DecidableEq

def Bound.message : Bound → String
  | .atLeast n => "Input should be greater than or equal to " ++ toString n
  | .above n => "Input should be greater than " ++ toString n
  | .atMost n => "Input should be less than or equal to " ++ toString n

/-- Choices in quotes, the last joined by "or". -/
def choiceText (choices : List String) : String :=
  let quotes := choices.map fun c => "'" ++ c ++ "'"
  match quotes.reverse with
  | [] => ""
  | [only] => only
  | last :: before => String.intercalate ", " before.reverse ++ " or " ++ last

def orderText (finishName startName : String) (finish start : Binary64) : String :=
  "Value error, " ++ finishName ++ " (" ++ finish.text ++ ") must be greater than " ++ startName
    ++ " (" ++ start.text ++ ")"

def Fault.message : Fault → String
  | .missing => "Field required"
  | .unknownKey => "Extra inputs are not permitted"
  | .notRecord .program model => "Input should be a valid dictionary or instance of " ++ model
  | .notRecord .body _ => "Input should be a valid dictionary or object to extract fields from"
  | .notList => "Input should be a valid list"
  | .notChoice choices => "Input should be " ++ choiceText choices
  | .notText => "Input should be a valid string"
  | .emptyText => "String should have at least 1 character"
  | .pattern shape => "String should match pattern '" ++ shape ++ "'"
  | .notNumber => "Input should be a valid number"
  | .numberText => "Input should be a valid number, unable to parse string as a number"
  | .notFinite => "Input should be a finite number"
  | .bound broken => broken.message
  | .notInteger => "Input should be a valid integer"
  | .integerText => "Input should be a valid integer, unable to parse string as an integer"
  | .fractional => "Input should be a valid integer, got a number with a fractional part"
  | .integerSize => "Unable to parse input string as an integer, exceeded maximum size"
  | .notFlag => "Input should be a valid boolean"
  | .flagText => "Input should be a valid boolean, unable to interpret input"
  | .blankOverlayText => "Value error, overlay text must not be empty"
  | .windowOrder finish start => orderText "endSec" "startSec" finish start
  | .repeatedOverlay id => "Value error, duplicate text overlay id: " ++ id
  | .momentOrder finish start => orderText "endTime" "startTime" finish start

inductive Place where
  | key (name : String)
  | index (n : Nat)
deriving DecidableEq

def Place.text : Place → String
  | .key name => name
  | .index n => toString n

structure Issue where
  location : List Place
  fault : Fault
deriving DecidableEq

/-- One finding on a line: where, unless that is the whole or the request body as such, and what. -/
def findingText (location : List Place) (message : String) : String :=
  let place := String.intercalate "." ((location.filter (· ≠ .key "body")).map Place.text)
  if place.isEmpty then message else place ++ ": " ++ message

def Issue.text (issue : Issue) : String := findingText issue.location issue.fault.message

def issuesText (issues : List Issue) : String := String.intercalate "; " (issues.map Issue.text)

end ClipRender.Validation
