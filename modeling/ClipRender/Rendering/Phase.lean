import ClipRender.Engine.Script
import ClipRender.Rendering.Job

set_option autoImplicit false

/-!
Where renders stand, and the efforts to stop engines. To wait for an engine within a limit of time
they send a lookout, and are called when it is back or when an alarm rings. In the latter case they
recall the lookout and go on once it is back.
-/

namespace ClipRender.Rendering

inductive Party where
  | render (task : Nat)
  | stopper (number : Nat)
deriving DecidableEq

inductive Recall where
  | timeUp
  | aborted
deriving DecidableEq

inductive LookoutStage where
  /-- Its turn is coming. -/
  | called
  | awaitingEnd
  /-- The engine has ended, but its report is still open. -/
  | awaitingReport
  | back
deriving DecidableEq

structure Lookout where
  /-- The number of its alarm, too. -/
  number : Nat
  pid : Nat
  /-- Whether it waits for the end of the report as well. -/
  toReportEnd : Bool
  owner : Party
  stage : LookoutStage
  recalled : Option Recall
  /-- Whether the owner has been called since it began to wait. -/
  announced : Bool
deriving DecidableEq

/-- Who is told that an engine ends. -/
inductive Listener where
  | lookout (number : Nat)
  | stopper (number : Nat)
deriving DecidableEq

inductive Stage where
  /-- Not begun. -/
  | called
  /-- Asked to end; a lookout waits for that. -/
  | grace (lookout : Nat)
  | killed
deriving DecidableEq

inductive StopReason where
  /-- Cancelled while the engine was being started. -/
  | cancelled
  | timeout
deriving DecidableEq

inductive Client where
  /-- The task of a call that cancels; the stopper goes with it. -/
  | call (task : Nat)
  /-- A render that stops its engine itself. -/
  | render (task : Nat) (reason : StopReason)
  /-- An aborted render, which waits for the stopper. -/
  | aborted (task : Nat)
  | nobody
deriving DecidableEq

structure Stopper where
  number : Nat
  pid : Nat
  stage : Stage
  client : Client
deriving DecidableEq

/-- What a render waits for. -/
inductive Phase where
  /-- A slot. -/
  | queued
  /-- Its turn, with a slot of its own. -/
  | granted
  /-- The start of its engine. -/
  | spawning (script : Engine.Script)
  /-- The lookout sent to its engine. -/
  | watching (pid lookout : Nat)
  /-- The end of its engine, which it stops itself. -/
  | stopping
  /-- The end of its engine, which a stopper sees to after an abort. -/
  | shielded
deriving DecidableEq

structure Render where
  task : Nat
  job : Job
  output : Files.Path
  /-- Where the engine writes. -/
  part : Files.Path
  command : List String
  /-- When it got its slot, in milliseconds. -/
  started : Nat
  phase : Phase
deriving DecidableEq

end ClipRender.Rendering
