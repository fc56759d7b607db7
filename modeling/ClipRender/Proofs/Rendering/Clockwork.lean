import ClipRender.Proofs.Rendering.Refusing
import ClipRender.Rendering.Handle

set_option autoImplicit false

/-!
No event moves the clock. Renders, stoppers and lookouts take what time it is from their world and
leave it as it is.
-/

namespace ClipRender

def World.clock (world : World) : Int × Nat := (world.epoch, world.now)

theorem World.files_clock (world : World) (files : Files.Tree) :
    World.clock { world with files := files } = world.clock := rfl

@[simp] theorem World.takeScript_clock (world : World) : world.takeScript.2.clock = world.clock := by
  rw [takeScript]
  split <;> rfl

namespace Rendering.Scene

variable (s : Scene) (r : Render) (x : Stopper) (l : Lookout)

section Basic

@[simp] theorem onPool_clock (f : Pool → Pool) : (s.onPool f).world.clock = s.world.clock := rfl

@[simp] theorem ask_clock (posting : Posting) : (s.ask posting).world.clock = s.world.clock := rfl

@[simp] theorem post_clock (event : Event) : (s.post event).world.clock = s.world.clock := rfl

@[simp] theorem postAfter_clock (delay : Nat) (event : Event) :
    (s.postAfter delay event).world.clock = s.world.clock := rfl

@[simp] theorem freshNumber_clock : s.freshNumber.2.world.clock = s.world.clock := rfl

@[simp] theorem tell_clock (listener : Listener) :
    (s.tell listener).world.clock = s.world.clock := by
  unfold tell
  split
  · split <;> simp
  · simp

theorem foldl_clock {α : Type} {f : Scene → α → Scene}
    (hf : ∀ s a, (f s a).world.clock = s.world.clock) (all : List α) (s : Scene) :
    (all.foldl f s).world.clock = s.world.clock := by
  induction all generalizing s with
  | nil => rfl
  | cons a all ih => exact (ih (f s a)).trans (hf s a)

@[simp] theorem exit_clock (pid : Nat) (code : Int) :
    (s.exit pid code).world.clock = s.world.clock := by
  unfold exit
  split
  · rfl
  · split
    · rfl
    · exact foldl_clock tell_clock _ _

@[simp] theorem logSignal_clock (pid : Nat) (signal : Engine.Signal) (heard : Bool) :
    (s.logSignal pid signal heard).world.clock = s.world.clock := rfl

@[simp] theorem send_clock (pid : Nat) (signal : Engine.Signal) :
    (s.send pid signal).world.clock = s.world.clock := by
  unfold send
  split
  · rfl
  · dsimp only
    split <;> simp

@[simp] theorem grant_clock : s.grant.world.clock = s.world.clock := by
  unfold grant
  split <;> simp

@[simp] theorem release_clock : s.release.world.clock = s.world.clock := by simp [release]

@[simp] theorem discardPart_clock (world : World) (part : Files.Path) :
    (discardPart world part).clock = world.clock := by
  unfold discardPart
  split
  · split <;> rfl
  · rfl

@[simp] theorem leave_clock : (s.leave r).world.clock = s.world.clock :=
  discardPart_clock s.world r.part

@[simp] theorem statusAfter_clock (task : Nat) (failure : Failure) :
    (s.statusAfter task failure).world.clock = s.world.clock := by
  unfold statusAfter
  split <;> simp

@[simp] theorem fail_clock (failure : Failure) :
    (s.fail r failure).world.clock = s.world.clock := by simp [fail]

@[simp] theorem failHolding_clock (failure : Failure) :
    (s.failHolding r failure).world.clock = s.world.clock := by simp [failHolding]

end Basic

section Lookouts

@[simp] theorem sendLookout_clock (owner : Party) (pid : Nat) (toReportEnd : Bool)
    (limit : Binary64) :
    (s.sendLookout owner pid toReportEnd limit).2.world.clock = s.world.clock := rfl

@[simp] theorem sendLookoutInVain_clock (owner : Party) (pid : Nat) (toReportEnd : Bool) :
    (s.sendLookoutInVain owner pid toReportEnd).2.world.clock = s.world.clock := rfl

@[simp] theorem comeBack_clock : (s.comeBack l).world.clock = s.world.clock := rfl

@[simp] theorem findEnded_clock (process : Engine.Process) :
    (s.findEnded l process).world.clock = s.world.clock := by
  unfold findEnded
  split
  · simp
  · split <;> simp

@[simp] theorem look_clock : (s.look l).world.clock = s.world.clock := by
  unfold look
  split
  · rfl
  · split
    · simp
    · split
      · rfl
      · split <;> simp

@[simp] theorem drain_clock (pid : Nat) : (s.drain pid).world.clock = s.world.clock := by
  unfold drain
  split
  · rfl
  · exact foldl_clock (fun s (l : Lookout) => tell_clock s (.lookout l.number)) _ _

@[simp] theorem callOwner_clock : (s.callOwner l).world.clock = s.world.clock := by
  unfold callOwner
  split <;> simp

@[simp] theorem announce_clock : (s.announce l).world.clock = s.world.clock := by
  unfold announce
  split <;> simp

@[simp] theorem alarm_clock : (s.alarm l).world.clock = s.world.clock := by
  unfold alarm
  split <;> simp

@[simp] theorem callBack_clock (cause : Recall) :
    (s.callBack l cause).world.clock = s.world.clock := by
  unfold callBack
  dsimp only
  split <;> simp

@[simp] theorem dismiss_clock : (s.dismiss l).world.clock = s.world.clock := rfl

@[simp] theorem consult_clock (number : Nat) :
    (s.consult number).1.world.clock = s.world.clock := by
  unfold consult
  split
  · rfl
  · split
    · rfl
    · split <;> simp

@[simp] theorem abortWait_clock (number : Nat) :
    (s.abortWait number).world.clock = s.world.clock := by
  unfold abortWait
  split
  · rfl
  · split <;> simp

end Lookouts

section Ends

@[simp] theorem succeed_clock : (s.succeed r).world.clock = s.world.clock := by
  unfold succeed
  dsimp only
  split <;> simp

@[simp] theorem conclude_clock (process : Engine.Process) :
    (s.conclude r process).world.clock = s.world.clock := by
  unfold conclude
  dsimp only
  split
  · simp
  · split
    · simp
    · split
      · simp
      · exact succeed_clock _ r

@[simp] theorem timeOut_clock : (s.timeOut r).world.clock = s.world.clock := failHolding_clock s r _

@[simp] theorem watch_clock (pid : Nat) : (s.watch r pid).world.clock = s.world.clock := by
  unfold watch
  dsimp only
  split <;> simp

@[simp] theorem writeOutput_clock (world : World) (part : Files.Path)
    (output : Option Engine.Output) : (writeOutput world part output).clock = world.clock := by
  unfold writeOutput
  split <;> rfl

@[simp] theorem addProcess_clock (script : Engine.Script) :
    (s.addProcess r script).2.world.clock = s.world.clock := by
  unfold addProcess
  dsimp only
  exact writeOutput_clock _ r.part script.output

@[simp] theorem scheduleExit_clock (pid : Nat) (script : Engine.Script) :
    (s.scheduleExit pid script).world.clock = s.world.clock := by
  unfold scheduleExit
  split <;> simp

@[simp] theorem shield_clock (pid : Nat) : (s.shield r pid).world.clock = s.world.clock := rfl

@[simp] theorem goOn_clock (pid : Nat) (reason : StopReason) :
    (s.goOn r pid reason).world.clock = s.world.clock := by
  cases reason <;> simp [goOn]

@[simp] theorem finishStop_clock : (s.finishStop x).world.clock = s.world.clock := by
  unfold finishStop
  dsimp only
  split
  · simp
  · split <;> simp
  · simp
  · simp

@[simp] theorem beginStop_clock : (s.beginStop x).world.clock = s.world.clock := by
  unfold beginStop
  split <;> simp

@[simp] theorem killStopped_clock : (s.killStopped x).world.clock = s.world.clock := by
  unfold killStopped
  dsimp only
  split <;> simp

@[simp] theorem giveUp_clock : (s.giveUp x).world.clock = s.world.clock := by
  unfold giveUp
  dsimp only
  split
  · simp
  · split
    · simp
    · split <;> simp
  · simp

@[simp] theorem stop_clock (pid : Nat) (client : Client) :
    (s.stop pid client).world.clock = s.world.clock := by simp [stop]

@[simp] theorem stopOwn_clock (pid : Nat) (reason : StopReason) :
    (s.stopOwn r pid reason).world.clock = s.world.clock := by simp [stopOwn]

@[simp] theorem stopperTurn_clock : (s.stopperTurn x).world.clock = s.world.clock := by
  unfold stopperTurn
  split
  · simp
  · next number _ =>
    have hconsult := consult_clock s number
    split <;> next hsame => rw [hsame] at hconsult; simpa using hconsult
  · split <;> simp

end Ends

section Starts

@[simp] theorem attend_clock (pid : Nat) : (s.attend r pid).world.clock = s.world.clock := by
  unfold attend
  split <;> simp

@[simp] theorem started_clock (script : Engine.Script) :
    (s.started r script).world.clock = s.world.clock := by
  unfold started
  split <;> simp

@[simp] theorem begin_clock : (s.begin r).world.clock = s.world.clock := by
  unfold begin
  split
  · simp
  · dsimp only
    split
    · simp
    · simp

@[simp] theorem lineUp_clock : (s.lineUp r).world.clock = s.world.clock := by
  unfold lineUp
  split <;> simp

@[simp] theorem run_clock (task : Nat) (job : Job) :
    (s.run task job).world.clock = s.world.clock := by
  unfold run
  dsimp only
  split <;> simp

@[simp] theorem createJob_clock (order : Order) : (s.createJob order).1.clock = s.world.clock := by
  obtain ⟨drawn, hworld⟩ := createJob_world s order
  rw [hworld]
  rfl

@[simp] theorem accept_clock (task : Nat) (order : Order) :
    (s.accept task order).world.clock = s.world.clock := by
  have hjob := createJob_clock s order
  unfold accept
  dsimp only
  generalize s.createJob order = made at hjob ⊢
  split
  · rw [onPool_clock]
    exact hjob
  · split
    · exact (World.files_clock made.1 _).trans hjob
    · rw [run_clock]
      exact (World.files_clock made.1 _).trans hjob

end Starts

section Events

@[simp] theorem cancel_clock (task : Nat) (jobId : String) :
    (s.cancel task jobId).world.clock = s.world.clock := by
  unfold cancel
  split
  · simp
  · dsimp only
    split <;> simp

@[simp] theorem abandon_clock (task : Nat) : (s.abandon task).world.clock = s.world.clock := rfl

@[simp] theorem abortStop_clock : (s.abortStop x).world.clock = s.world.clock := by
  unfold abortStop
  split <;> simp

@[simp] theorem abortRender_clock : (s.abortRender r).world.clock = s.world.clock := by
  unfold abortRender
  split
  · simp
  · simp
  · simp
  · simp
  · split <;> simp
  · simp

@[simp] theorem abort_clock (task : Nat) : (s.abort task).world.clock = s.world.clock := by
  unfold abort
  split <;> simp

@[simp] theorem answered_clock (pid : Nat) (finding : Finding) :
    (s.answered r pid finding).world.clock = s.world.clock := by
  unfold answered
  split
  · split <;> simp
  · simp
  · simp

@[simp] theorem renderTurn_clock : (s.renderTurn r).world.clock = s.world.clock := by
  unfold renderTurn
  split
  · rw [begin_clock]
    split <;> simp
  · next pid number _ =>
    have hconsult := consult_clock s number
    split <;> next hsame => rw [hsame] at hconsult; simpa using hconsult
  · split <;> simp
  · rfl

@[simp] theorem turn_clock (party : Party) : (s.turn party).world.clock = s.world.clock := by
  unfold turn
  split
  · split <;> simp
  · split <;> simp

theorem forLookout_clock (number : Nat) {f : Lookout → Scene}
    (hf : ∀ l, (f l).world.clock = s.world.clock) :
    (s.forLookout number f).world.clock = s.world.clock := by
  unfold forLookout
  split
  · exact hf _
  · rfl

@[simp] theorem spawned_clock (task : Nat) : (s.spawned task).world.clock = s.world.clock := by
  unfold spawned
  split
  · split <;> simp
  · rfl

/-- Whatever a pool is told, it is the same time after it. -/
@[simp] theorem handle_clock (event : Event) : (s.handle event).world.clock = s.world.clock := by
  cases event with
  | look number => exact forLookout_clock s number (look_clock s)
  | announce number => exact forLookout_clock s number (announce_clock s)
  | alarm number => exact forLookout_clock s number (alarm_clock s)
  | _ => simp [handle]

end Events

end Rendering.Scene

end ClipRender
