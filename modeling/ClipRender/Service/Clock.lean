import ClipRender.Service.State

set_option autoImplicit false

/-!
Time for the service. It moves from one millisecond at which something is due to the next, and at
each of them all that can happen at once does.
-/

namespace ClipRender.Service.State

def setNow (s : State) (now : Nat) : State := { s with world := { s.world with now := now } }

/-- All appointments up to a time. The fuel bounds the number of stops on the way. -/
def advanceTo (fuel : Nat) (target : Nat) (s : State) : State :=
  match fuel with
  | 0 => s.setNow target
  | fuel + 1 =>
    match s.agenda.nextDue? s.world.now with
    | none => s.setNow target
    | some due =>
      if target < due then s.setNow target
      else advanceTo fuel target ((s.setNow due).settle settleFuel)

/-- More stops than a session makes. -/
def advanceFuel : Nat := 10000000

end ClipRender.Service.State
