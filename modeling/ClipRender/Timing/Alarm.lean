import ClipRender.Binary64.Arithmetic

set_option autoImplicit false

/-!
When an alarm rings. Delays are in seconds and added to the time as double-precision numbers, while
the clock moves in whole milliseconds: an alarm rings at the first of them that has passed its time.
-/

namespace ClipRender.Alarm

def seconds (ms : Nat) : Binary64 := Binary64.ofQuotient ms 1000

/-- What the clock may lag behind an alarm that rings. -/
def tolerance : Binary64 := Binary64.ofQuotient 1 1000000000

def after (now : Nat) (delay : Nat) : Binary64 := seconds now + seconds delay

/-- Whether an alarm for `time` rings at `ms`. Only a time that is later keeps it from ringing. -/
def rings (time : Binary64) (ms : Nat) : Bool := !Binary64.le (seconds ms + tolerance) time

def search (time : Binary64) : Nat → Nat → Option Nat
  | 0, _ => none
  | fuel + 1, ms => if rings time ms then some ms else search time fuel (ms + 1)

/-- The first millisecond from `now` on at which an alarm for `time` rings; none for a time without
end. The search starts a little before the time. -/
def due? (now : Nat) (time : Binary64) : Option Nat :=
  match (time * Binary64.ofNat 1000).truncate with
  | .error .nan => some now
  | .error .infinity => none
  | .ok ms => search time 8 (max now (ms - 2).toNat)

end ClipRender.Alarm
