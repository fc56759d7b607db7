import ClipRender.Binary64.Arithmetic
import ClipRender.Decimal.Whole
import ClipRender.Json.Value
import ClipRender.Text.Blank
import ClipRender.Validation.Checked

set_option autoImplicit false

/-!
Plain values out of untyped data. Numbers are also taken from numerals and flags, and flags from
words and from the numbers 0 and 1; text is taken from text alone.
-/

namespace ClipRender.Validation

open Json (Value)

def text : Value → Checked String
  | .string s => .valid s
  | _ => .fail .notText

def nonEmptyText (v : Value) : Checked String :=
  (text v).ensure (fun s => !s.isEmpty) fun _ => .emptyText

/-- The number that a numeral stands for, blanks around it aside. Underscores may group the
characters of one that stands alone. -/
def numeral? (s : String) : Option Binary64 :=
  let cs := s.toList
  match Decimal.read? (Text.trim Text.isWhiteSpace cs) with
  | some x => some x
  | none =>
    if Decimal.hasLoneUnderscores cs then Decimal.read? (cs.filter (· ≠ '_')) else none

/-- Any number, infinite ones and NaN included. -/
def number : Value → Checked Binary64
  | .bool b => .valid (if b then Binary64.one else Binary64.zero)
  | .number x => .valid x
  | .integer n =>
    let x := Binary64.ofInt n
    if x.isFinite then .valid x else .fail .notNumber
  | .string s =>
    match numeral? s with
    | some x => .valid x
    | none => .fail .numberText
  | _ => .fail .notNumber

def Bound.holds (x : Binary64) : Bound → Bool
  | .atLeast n => Binary64.le (Binary64.ofInt n) x
  | .above n => Binary64.lt (Binary64.ofInt n) x
  | .atMost n => Binary64.le x (Binary64.ofInt n)

/-- The value, unless it breaks a bound; the first bound broken is reported. -/
def within (bounds : List Bound) (x : Binary64) : Checked Binary64 :=
  match bounds.find? fun b => !b.holds x with
  | some broken => .fail (.bound broken)
  | none => .valid x

def boundedNumber (bounds : List Bound) (v : Value) : Checked Binary64 :=
  ((number v).ensure Binary64.isFinite fun _ => .notFinite).andThen (within bounds)

/-- A numeral from the digit on that counts first: zeros before it are passed over with the
underscores between them, and so far also before a minus sign. A zero in front of a point stays, and
so does the last character where nothing else counts. -/
def afterZeros (last : Char) : List Char → Option (List Char)
  | [] => some [last]
  | c :: rest =>
    if c = '0' ∨ c = '_' then afterZeros c rest
    else if c.isDigit ∨ c = '-' then some (c :: rest)
    else if c = '.' then some (last :: c :: rest)
    else none

def withoutLeadingZeros? : List Char → Option (List Char)
  | [] => none
  | c :: rest =>
    if c = '0' then afterZeros c rest
    else if c.isDigit ∨ c = '-' then some (c :: rest)
    else none

def withoutZeroPlaces (cs : List Char) : List Char :=
  match cs.dropWhile (· ≠ '.') with
  | [] => cs
  | _ :: places =>
    if !places.isEmpty && places.all (· = '0') then cs.takeWhile (· ≠ '.') else cs

def withoutUnderscores (cs : List Char) : List Char :=
  if Decimal.hasLoneUnderscores cs then cs.filter (· ≠ '_') else cs

/-- A plus sign in front goes; no minus sign may follow it. -/
def withoutPlus? : List Char → Option (List Char)
  | '+' :: '-' :: _ => none
  | '+' :: rest => some rest
  | cs => some cs

/-- How many characters of a numeral for a whole number are read, a minus sign among them. -/
def integerNumeralLimit : Nat := 4300

/-- A plain numeral: a minus sign or none, and digits of which the first is 0 only if it stands
alone. That there are too many digits shows before what follows them. -/
def plainInteger (cs : List Char) : Checked Int :=
  let (negative, body) := match cs with
    | '-' :: rest => (true, rest)
    | rest => (false, rest)
  let digits := body.takeWhile Char.isDigit
  if digits.isEmpty || (digits.head? = some '0' && digits.length ≠ 1) then .fail .integerText
  else if integerNumeralLimit < digits.length + negative.toNat then .fail .integerSize
  else if digits.length ≠ body.length then .fail .integerText
  else
    let magnitude : Int := Decimal.digitsValue digits
    .valid (if negative then -magnitude else magnitude)

def integerOfText (s : String) : Checked Int :=
  match (withoutPlus? (Text.trim Text.isWhiteSpace s.toList)).bind withoutLeadingZeros? with
  | some cs => plainInteger (withoutUnderscores (withoutZeroPlaces cs))
  | none => .fail .integerText

/-- One past the greatest whole number of 64 bits with a sign. -/
def wordLimit : Nat := Nat.pow 2 63

/-- Whole numbers of any size, but only those of 64 bits where the data holds a number that need
not be whole. -/
def integer : Value → Checked Int
  | .bool b => .valid (if b then 1 else 0)
  | .integer n => .valid n
  | .number x =>
    if !x.isFinite then .fail .notFinite
    else
      match x.toInt? with
      | none => .fail .fractional
      | some n => if n.natAbs < wordLimit then .valid n else .fail .integerSize
  | .string s => integerOfText s
  | _ => .fail .notInteger

def integerAbove (limit : Int) (v : Value) : Checked Int :=
  (integer v).ensure (fun n => limit < n) fun _ => .bound (.above limit)

/-- 0 and 1 are flags; other whole numbers in range are refused as not to be understood. -/
def flagOfInt (inRange : Bool) (n : Int) : Checked Bool :=
  if n = 0 then .valid false
  else if n = 1 then .valid true
  else if inRange then .fail .flagText
  else .fail .notFlag

def offWords : List String := ["0", "off", "f", "false", "n", "no"]

def onWords : List String := ["1", "on", "t", "true", "y", "yes"]

def flagOfText (s : String) : Checked Bool :=
  let word := String.ofList (s.toList.map Char.toLower)
  if offWords.contains word then .valid false
  else if onWords.contains word then .valid true
  else .fail .flagText

def flag : Value → Checked Bool
  | .bool b => .valid b
  | .integer n => flagOfInt (-(wordLimit : Int) ≤ n ∧ n < wordLimit) n
  | .number x =>
    match x.toInt? with
    | some n => flagOfInt (n.natAbs < wordLimit) n
    | none => .fail .notFlag
  | .string s => flagOfText s
  | _ => .fail .notFlag

def optional {α : Type} (check : Value → Checked α) : Value → Checked (Option α)
  | .null => .valid none
  | v => (check v).map some

end ClipRender.Validation
