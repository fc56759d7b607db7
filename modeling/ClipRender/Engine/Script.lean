import ClipRender.ExportError
import ClipRender.Text.Utf8

set_option autoImplicit false

/-!
How one engine behaves from its start to its end. Times are in milliseconds.
-/

namespace ClipRender.Engine

inductive Output where
  | file (content : Utf8.Bytes)
  | directory
deriving DecidableEq

structure Script where
  /-- How long the system takes to start it. -/
  startDelay : Nat
  startFault : Option StartFault
  output : Option Output
  /-- How long it runs if nobody stops it; without a number it never ends by itself. -/
  lifetime : Option Nat
  exitCode : Int
  /-- What it writes for its caller to read. -/
  report : Utf8.Bytes
  /-- How long the report stays open after the exit. -/
  reportDelay : Nat
  ignoresTerminate : Bool
  terminateDelay : Nat
  terminateCode : Int
  killDelay : Nat
  /-- Whether children of the engine outlive it. -/
  leavesChildren : Bool
deriving DecidableEq

end ClipRender.Engine
