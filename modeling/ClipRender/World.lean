import ClipRender.Binary64.Arithmetic
import ClipRender.Engine.Process
import ClipRender.Files.Change
import ClipRender.Text.Quoted

set_option autoImplicit false

/-!
What renders find around them: files, the clock, fresh tokens and the engines to come. Everything
that others could notice is on record.
-/

namespace ClipRender

structure SpawnRecord where
  time : Nat
  pid : Nat
  command : List String
deriving DecidableEq

structure SignalRecord where
  time : Nat
  pid : Nat
  signal : Engine.Signal
  /-- Whether anyone was there to hear it. -/
  heard : Bool
deriving DecidableEq

/-- Which paths, as they are written, the system refuses to list, to tell of and to remove. -/
structure Refusals where
  listing : String → Bool
  status : String → Bool
  removal : String → Bool

def Refusals.byName (directories files : List String) : Refusals where
  listing path := ((Files.Path.ofText path).name?).any directories.contains
  status _ := false
  removal path := ((Files.Path.ofText path).name?).any files.contains

structure World where
  files : Files.Tree
  /-- The time at the start, in milliseconds since the epoch. -/
  epoch : Int
  /-- Milliseconds since the start. -/
  now : Nat
  tokensDrawn : Nat
  /-- Where programs are looked for. -/
  programDirectory : String
  /-- The engines to come, in order. -/
  scripts : List Engine.Script
  /-- How each engine after those behaves. -/
  otherScript : Engine.Script
  spawned : Nat
  spawns : List SpawnRecord
  signals : List SignalRecord
  refusals : Refusals

namespace World

/-- The time in seconds since the epoch. -/
def time (world : World) : Binary64 := Binary64.ofQuotient (world.epoch + world.now) 1000

/-- The time in whole milliseconds since the epoch. -/
def instant (world : World) : Int := world.epoch + world.now

/-- Thirty-two hexadecimal digits, different for each count. -/
def tokenText (count : Nat) : String :=
  let block := String.ofList (Text.hexDigits 8 count)
  block ++ block ++ block ++ block

def drawToken (world : World) : String × World :=
  (tokenText (world.tokensDrawn + 1), { world with tokensDrawn := world.tokensDrawn + 1 })

def takeScript (world : World) : Engine.Script × World :=
  match world.scripts with
  | [] => (world.otherScript, world)
  | script :: rest => (script, { world with scripts := rest })

end World

end ClipRender
