import ClipRender.Decimal.Fixed
import ClipRender.Failure

set_option autoImplicit false

/-!
Times as the engine reads them: hours, minutes, seconds and milliseconds, of which the whole count
of milliseconds is taken first, so that no field overflows.
-/

namespace ClipRender.Timestamp

/-- The milliseconds in a time of so many seconds: the product rounded as all products are, then to
the nearest whole number. -/
def milliseconds (seconds : Binary64) : Except Failure Nat :=
  if Binary64.lt seconds Binary64.zero || !seconds.isFinite then .error (.timestampRange seconds)
  else
    match (seconds * Binary64.ofNat 1000).round with
    | .ok count => .ok count.toNat
    | .error why => .error (.noWhole why)

/-- Milliseconds as `HH:MM:SS.mmm`, with as many digits for the hours as they need. -/
def ofMilliseconds (count : Nat) : String :=
  Decimal.padded 2 (count / 3600000) ++ ":" ++ Decimal.padded 2 (count % 3600000 / 60000) ++ ":"
    ++ Decimal.padded 2 (count % 60000 / 1000) ++ "." ++ Decimal.padded 3 (count % 1000)

def format (seconds : Binary64) : Except Failure String :=
  (milliseconds seconds).map ofMilliseconds

end ClipRender.Timestamp
