import ClipRender.Engine.Script

set_option autoImplicit false

/-!
A started engine. It ends once: the first exit counts. Its report can be read to the end some time
after that.
-/

namespace ClipRender.Engine

inductive Signal where
  | terminate
  | kill
deriving DecidableEq

def Signal.name : Signal → String
  | .terminate => "SIGTERM"
  | .kill => "SIGKILL"

structure Process where
  pid : Nat
  script : Script
  /-- The code with which it ended. -/
  exit : Option Int
  /-- Whether the report has been read to its end. -/
  drained : Bool
deriving DecidableEq

namespace Process

def start (pid : Nat) (script : Script) : Process := ⟨pid, script, none, false⟩

def isRunning (p : Process) : Bool := p.exit.isNone

def ended (p : Process) (code : Int) : Process :=
  if p.isRunning then { p with exit := some code } else p

def atReportEnd (p : Process) : Process := if p.isRunning then p else { p with drained := true }

def hears (p : Process) : Bool := p.isRunning || p.script.leavesChildren

def exitOn (p : Process) : Signal → Option (Nat × Int)
  | .terminate =>
    if p.isRunning && !p.script.ignoresTerminate then
      some (p.script.terminateDelay, p.script.terminateCode)
    else none
  | .kill => if p.isRunning then some (p.script.killDelay, -9) else none

end Process

end ClipRender.Engine
