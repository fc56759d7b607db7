import ClipRender.Decimal.Literal
import ClipRender.Json.Value
import ClipRender.Text.Surrogate

set_option autoImplicit false

/-!
Reading JSON text. Beside the standard forms `NaN`, `Infinity` and `-Infinity` are numbers, and of
equal keys the last one counts. A fault carries the position of the offending character, counted in
characters from the start.
-/

namespace ClipRender.Json

open Text

inductive ReadError where
  | syntaxAt (position : Nat)
  /-- A container that is nested deeper than the reader goes. -/
  | tooDeep (container : Container)
  /-- A whole number has more digits than are converted. -/
  | tooManyDigits
deriving DecidableEq

/-- What a reading step found, with the position and the text after it. -/
abbrev Step (α : Type) := Except ReadError (α × Nat × List Char)

def depthLimit : Nat := 950

def digitLimit : Nat := 4300

def isBlank (c : Char) : Bool := c = ' ' || c = '\t' || c = '\n' || c = '\r'

def skipBlanks (position : Nat) : List Char → Nat × List Char
  | [] => (position, [])
  | c :: rest => if isBlank c then skipBlanks (position + 1) rest else (position, c :: rest)

def hexDigit? (c : Char) : Option Nat :=
  if c.isDigit then some (c.toNat - '0'.toNat)
  else if 'a' ≤ c ∧ c ≤ 'f' then some (c.toNat - 'a'.toNat + 10)
  else if 'A' ≤ c ∧ c ≤ 'F' then some (c.toNat - 'A'.toNat + 10)
  else none

def hex4? (a b c d : Char) : Option Nat := do
  let a ← hexDigit? a
  let b ← hexDigit? b
  let c ← hexDigit? c
  let d ← hexDigit? d
  return ((a * 16 + b) * 16 + c) * 16 + d

def escaped? : Char → Option Char
  | '"' => some '"'
  | '\\' => some '\\'
  | '/' => some '/'
  | 'b' => some '\x08'
  | 'f' => some '\x0c'
  | 'n' => some '\n'
  | 'r' => some '\r'
  | 't' => some '\t'
  | _ => none

/-- The character written by a backslash and the letter `c`, the backslash at `position`, and how
many characters after the letter belong to it. An escape by number needs a further character after
its digits, and two of them for surrogates of each other are one character. -/
def escape (position : Nat) (c : Char) (rest : List Char) : Except ReadError (Char × Nat) :=
  if c = 'u' then
    match rest with
    | a :: b :: c :: d :: after :: more =>
      match hex4? a b c d with
      | none => .error (.syntaxAt (position + 1))
      | some high =>
        match Surrogate.isHigh high, after :: more with
        | true, '\\' :: 'u' :: a :: b :: c :: d :: _ :: _ =>
          match hex4? a b c d with
          | none => .error (.syntaxAt (position + 7))
          | some low =>
            if Surrogate.isLow low then .ok (Surrogate.pair high low, 10)
            else .ok (Surrogate.alone high, 4)
        | _, _ => .ok (Surrogate.alone high, 4)
    | _ => .error (.syntaxAt (position + 1))
  else
    match escaped? c with
    | none => .error (.syntaxAt position)
    | some e => .ok (e, 0)

/-- The rest of a string whose opening quote stands at `start`; `found` holds its characters so
far, last first. -/
def stringRest (start position : Nat) (found : List Char) : List Char → Step String
  | [] => .error (.syntaxAt start)
  | c :: rest =>
    if c = '"' then .ok (String.ofList found.reverse, position + 1, rest)
    else if c = '\\' then
      match rest with
      | [] => .error (.syntaxAt start)
      | e :: more =>
        match escape position e more with
        | .error fault => .error fault
        | .ok (meant, taken) =>
          stringRest start (position + 2 + taken) (meant :: found) (more.drop taken)
    else if c.toNat < 0x20 then .error (.syntaxAt position)
    else stringRest start (position + 1) (c :: found) rest
termination_by cs => cs.length
decreasing_by all_goals simp only [List.length_drop, List.length_cons]; omega

def fraction (cs : List Char) : List Char :=
  match cs with
  | '.' :: rest =>
    let digits := rest.takeWhile Char.isDigit
    if digits.isEmpty then [] else '.' :: digits
  | _ => []

def exponent (cs : List Char) : List Char :=
  match cs with
  | c :: rest =>
    if c = 'e' ∨ c = 'E' then
      let sign := match rest with
        | '+' :: _ => ['+']
        | '-' :: _ => ['-']
        | _ => []
      let digits := (rest.drop sign.length).takeWhile Char.isDigit
      if digits.isEmpty then [] else c :: (sign ++ digits)
    else []
  | [] => []

/-- The digits before the point: a single zero, or a run that starts with another digit. -/
def wholeDigits (cs : List Char) : List Char :=
  match cs with
  | '0' :: _ => ['0']
  | _ => cs.takeWhile Char.isDigit

/-- A number, as long as it goes on; what follows is left to the caller. -/
def number (position : Nat) (cs : List Char) : Step Value :=
  let sign := match cs with
    | '-' :: _ => ['-']
    | _ => []
  let body := cs.drop sign.length
  let whole := wholeDigits body
  if whole.isEmpty then .error (.syntaxAt position)
  else
    let places := fraction (body.drop whole.length)
    let power := exponent (body.drop (whole.length + places.length))
    let length := sign.length + whole.length + places.length + power.length
    let after := (position + length, cs.drop length)
    if places.isEmpty ∧ power.isEmpty then
      if whole.length > digitLimit then .error .tooManyDigits
      else
        let n : Int := Decimal.digitsValue whole
        .ok (.integer (if sign.isEmpty then n else -n), after)
    else
      match Decimal.Literal.read? (sign ++ whole ++ places ++ power) with
      | some literal => .ok (.number literal.toBinary64, after)
      | none => .error (.syntaxAt position)

def after? (word : String) (cs : List Char) : Option (List Char) :=
  if word.toList.isPrefixOf cs then some (cs.drop word.length) else none

def words : List (String × Value) :=
  [("null", .null), ("true", .bool true), ("false", .bool false), ("NaN", .number .nan),
   ("Infinity", .number (.infinity false)), ("-Infinity", .number (.infinity true))]

def word? (position : Nat) (cs : List Char) : Option (Value × Nat × List Char) :=
  words.findSome? fun (word, v) =>
    (after? word cs).map fun rest => (v, position + word.length, rest)

def plain (position : Nat) (cs : List Char) : Step Value :=
  match word? position cs with
  | some found => .ok found
  | none => number position cs

mutual

/-- A value that starts here, without blanks before it. The fuel bounds the number of steps and is
never less than the text needs. -/
def value (fuel depth position : Nat) (cs : List Char) : Step Value :=
  match fuel with
  | 0 => .error (.tooDeep .array)
  | fuel + 1 =>
    match cs with
    | '"' :: rest =>
      (stringRest position (position + 1) [] rest).map fun (s, after) => (.string s, after)
    | '{' :: rest =>
      if depth = 0 then .error (.tooDeep .object)
      else
        match skipBlanks (position + 1) rest with
        | (p, '}' :: rest) => .ok (.object [], p + 1, rest)
        | (p, rest) => members fuel (depth - 1) p [] rest
    | '[' :: rest =>
      if depth = 0 then .error (.tooDeep .array)
      else
        match skipBlanks (position + 1) rest with
        | (p, ']' :: rest) => .ok (.array [], p + 1, rest)
        | (p, rest) => items fuel (depth - 1) p [] rest
    | _ => plain position cs

/-- The members of an object from a key on; `found` holds those before. -/
def members (fuel depth position : Nat) (found : Fields) (cs : List Char) : Step Value :=
  match fuel with
  | 0 => .error (.tooDeep .array)
  | fuel + 1 =>
    match cs with
    | '"' :: rest =>
      match stringRest position (position + 1) [] rest with
      | .error e => .error e
      | .ok (key, p, rest) =>
        match skipBlanks p rest with
        | (p, ':' :: rest) =>
          let (p, rest) := skipBlanks (p + 1) rest
          match value fuel depth p rest with
          | .error e => .error e
          | .ok (v, p, rest) =>
            match skipBlanks p rest with
            | (p, '}' :: rest) => .ok (.object (found.put key v), p + 1, rest)
            | (p, ',' :: rest) =>
              let (p, rest) := skipBlanks (p + 1) rest
              members fuel depth p (found.put key v) rest
            | (p, _) => .error (.syntaxAt p)
        | (p, _) => .error (.syntaxAt p)
    | _ => .error (.syntaxAt position)

/-- The items of an array from a value on; `found` holds those before, last first. -/
def items (fuel depth position : Nat) (found : List Value) (cs : List Char) : Step Value :=
  match fuel with
  | 0 => .error (.tooDeep .array)
  | fuel + 1 =>
    match value fuel depth position cs with
    | .error e => .error e
    | .ok (v, p, rest) =>
      match skipBlanks p rest with
      | (p, ']' :: rest) => .ok (.array (v :: found).reverse, p + 1, rest)
      | (p, ',' :: rest) =>
        let (p, rest) := skipBlanks (p + 1) rest
        items fuel depth p (v :: found) rest
      | (p, _) => .error (.syntaxAt p)

end

def read (text : String) : Except ReadError Value :=
  let cs := text.toList
  let (p, rest) := skipBlanks 0 cs
  match value (2 * cs.length + 2) depthLimit p rest with
  | .error e => .error e
  | .ok (v, p, rest) =>
    match skipBlanks p rest with
    | (_, []) => .ok v
    | (p, _) => .error (.syntaxAt p)

end ClipRender.Json
