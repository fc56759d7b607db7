import ClipRender.Binary64.Arithmetic
import ClipRender.ExportError
import ClipRender.Files.Fault

set_option autoImplicit false

/-!
Every way in which an operation can end without a result: an export error that a caller is told
about, a fault in the configuration, an abort, or a failure that nobody plans for.
-/

namespace ClipRender

inductive SettingSource where
  | environment
  | file
deriving DecidableEq

inductive Failure where
  | reported (error : ExportError)
  | aborted
  /-- Data handed in that does not pass its checks. -/
  | invalidData (issues : List Validation.Issue)
  /-- The text of a list setting is no JSON. -/
  | unreadableSetting (name : String) (source : SettingSource)
  /-- The text of a list setting is JSON of more nesting than is read. -/
  | nestedTooDeep (container : Json.Container)
  | negativeSlots
  | timestampRange (seconds : Binary64)
  | noWhole (why : Binary64.NoWhole)
  | wholeTooLarge
  | quotientTooLarge
  /-- `whole` tells a quotient of whole numbers. -/
  | divisionByZero (whole : Bool)
  | tooManyDigits (count : Nat)
  | nullByte
  | linkLoop (path : String)
  | noName (path : String)
  | file (fault : Files.Fault)
deriving DecidableEq

namespace Failure

/-- The text that tells the failure, for those that say more than their class. -/
def message? : Failure → Option String
  | .reported error => some error.detail
  | .aborted => none
  | .invalidData issues => some (Validation.issuesText issues)
  | .unreadableSetting .. => none
  | .nestedTooDeep container =>
    some ("maximum recursion depth exceeded while decoding a JSON " ++ container.name
      ++ " from a unicode string")
  | .negativeSlots => some "Semaphore initial value must be >= 0"
  | .timestampRange seconds =>
    some ("Timestamp must be a finite non-negative number, got " ++ seconds.text)
  | .noWhole .infinity => some "cannot convert float infinity to integer"
  | .noWhole .nan => some "cannot convert float NaN to integer"
  | .wholeTooLarge => some "int too large to convert to float"
  | .quotientTooLarge => some "integer division result too large for a float"
  | .divisionByZero whole => some (if whole then "division by zero" else "float division by zero")
  | .tooManyDigits _ => none
  | .nullByte => some "embedded null byte"
  | .linkLoop path => some ("Symlink loop from " ++ Text.quoted path)
  | .noName _ => none
  | .file _ => none

end Failure

end ClipRender
