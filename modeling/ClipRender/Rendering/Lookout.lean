import ClipRender.Rendering.Scene

set_option autoImplicit false

/-!
Lookouts from their start to their return. A lookout has its first turn in the round after it is
sent and one more when what it waits for has come. It is announced in the round after its return,
and its owner goes on in the round after that, unless an alarm has called the owner before. A
lookout that is recalled returns at its next turn, whatever it has seen.
-/

namespace ClipRender.Rendering.Scene

inductive Finding where
  /-- It has seen what it was sent for. -/
  | seen
  | recalled (cause : Recall)

def sendLookout (scene : Scene) (owner : Party) (pid : Nat) (toReportEnd : Bool)
    (limit : Binary64) : Nat × Scene :=
  let (number, scene) := scene.freshNumber
  let l : Lookout := ⟨number, pid, toReportEnd, owner, .called, none, false⟩
  let time := Alarm.seconds scene.world.now + limit
  (number, ((scene.ask (.at time (.alarm number))).onPool fun p =>
    { p with lookouts := p.lookouts ++ [l] }).post (.look number))

/-- Sends a lookout and recalls it at once, because no time is given. -/
def sendLookoutInVain (scene : Scene) (owner : Party) (pid : Nat) (toReportEnd : Bool) :
    Nat × Scene :=
  let (number, scene) := scene.freshNumber
  let l : Lookout := ⟨number, pid, toReportEnd, owner, .called, some .timeUp, false⟩
  (number, (scene.onPool fun p => { p with lookouts := p.lookouts ++ [l] }).post (.look number))

def comeBack (scene : Scene) (l : Lookout) : Scene :=
  (scene.onPool (·.setLookout { l with stage := .back })).post (.announce l.number)

/-- A lookout finds its engine at its end, and reads the report to its end if it is to. -/
def findEnded (scene : Scene) (l : Lookout) (process : Engine.Process) : Scene :=
  if !l.toReportEnd || process.drained then scene.comeBack l
  else if process.script.reportDelay = 0 then
    (scene.onPool (·.setProcess process.atReportEnd)).comeBack l
  else
    (scene.onPool (·.setLookout { l with stage := .awaitingReport })).postAfter
      process.script.reportDelay (.drained process.pid)

def look (scene : Scene) (l : Lookout) : Scene :=
  if l.stage ≠ .called then scene
  else if l.recalled.isSome then scene.comeBack l
  else
    match scene.pool.process? l.pid with
    | none => scene
    | some process =>
      if process.isRunning then
        scene.onPool fun p =>
          (p.setLookout { l with stage := .awaitingEnd }).listen l.pid (.lookout l.number)
      else scene.findEnded l process

def drain (scene : Scene) (pid : Nat) : Scene :=
  match scene.pool.process? pid with
  | none => scene
  | some process =>
    let readers := scene.pool.lookouts.filter fun l => l.pid = pid && l.stage = .awaitingReport
    readers.foldl (fun scene l => scene.tell (.lookout l.number))
      (scene.onPool (·.setProcess process.atReportEnd))

def callOwner (scene : Scene) (l : Lookout) : Scene :=
  if l.announced then scene
  else (scene.onPool (·.setLookout { l with announced := true })).post (.turn l.owner)

def announce (scene : Scene) (l : Lookout) : Scene :=
  if l.stage = .back then scene.callOwner l else scene

/-- The alarm set with a lookout rings. It means nothing once the lookout is recalled. -/
def alarm (scene : Scene) (l : Lookout) : Scene :=
  if l.recalled.isSome then scene else scene.callOwner l

/-- Recalls a lookout. One that waits gets its turn. -/
def callBack (scene : Scene) (l : Lookout) (cause : Recall) : Scene :=
  let l := { l with recalled := some cause, announced := false }
  match l.stage with
  | .awaitingEnd =>
    (scene.onPool fun p =>
      (p.unlisten (.lookout l.number)).setLookout { l with stage := .called }).post (.look l.number)
  | .awaitingReport =>
    ((scene.ask (.callOff (.drained l.pid))).onPool
      (·.setLookout { l with stage := .called })).post (.look l.number)
  | _ => scene.onPool (·.setLookout l)

/-- A lookout that is back, and of whom its owner has taken notice, is done with, and so is its
alarm. -/
def dismiss (scene : Scene) (l : Lookout) : Scene :=
  (scene.onPool (·.dropLookout l.number)).ask (.callOff (.alarm l.number))

/-- An owner that has its turn looks what has come of its lookout, and recalls one that is not back.
There is nothing to be told as long as the owner has not been called or waits for a lookout that it
has recalled. -/
def consult (scene : Scene) (number : Nat) : Scene × Option Finding :=
  match scene.pool.lookout? number with
  | none => (scene, none)
  | some l =>
    if !l.announced then (scene, none)
    else
      match l.stage, l.recalled with
      | .back, none => (scene.dismiss l, some .seen)
      | .back, some cause => (scene.dismiss l, some (.recalled cause))
      | _, none => (scene.callBack l .timeUp, none)
      | _, some _ => (scene, none)

/-- The owner of a lookout is aborted. One whose lookout is back already does not notice. -/
def abortWait (scene : Scene) (number : Nat) : Scene :=
  match scene.pool.lookout? number with
  | none => scene
  | some l => if l.stage = .back then scene else scene.callBack l .aborted

end ClipRender.Rendering.Scene
