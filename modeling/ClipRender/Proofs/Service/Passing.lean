import ClipRender.Proofs.Rendering.Clockwork
import ClipRender.Proofs.Sweeping
import ClipRender.Service.Session
import Mathlib.Logic.Relation

set_option autoImplicit false

/-!
How time passes for the service. Turns and calls take none, and only a step that waits lets the
clock go on; it never goes back.
-/

namespace ClipRender

namespace Service

variable {s t u : State}

structure Later (s t : State) : Prop where
  epoch : t.world.epoch = s.world.epoch
  now : s.world.now ≤ t.world.now

/-- What comes next: a turn of anybody, time that goes on, or a whole step of a session. -/
inductive Next (s : State) : State → Prop
  | turn (turn : Turn) : Next s (s.take turn)
  | time (now : Nat) (hnow : s.world.now ≤ now) : Next s (s.setNow now)
  | step {step : Step} {t : State} {entry : Entry} (h : s.step step = .ok (t, entry)) : Next s t

/-- What one state can lead to, in whatever order turns come. -/
def Reaches : State → State → Prop := Relation.ReflTransGen Next

namespace Later

theorem refl (s : State) : Later s s := ⟨rfl, Nat.le_refl _⟩

theorem trans (h : Later s t) (k : Later t u) : Later s u :=
  ⟨k.epoch.trans h.epoch, Nat.le_trans h.now k.now⟩

theorem of_clock (h : t.world.clock = s.world.clock) : Later s t :=
  ⟨(Prod.mk.inj h).1, (Prod.mk.inj h).2.ge⟩

theorem of_world (h : t.world = s.world) : Later s t := of_clock (congrArg World.clock h)

theorem time (h : Later s t) : Binary64.le s.world.time t.world.time = true := by
  obtain ⟨hepoch, hnow⟩ := h
  rw [World.time, World.time, hepoch]
  exact Binary64.ofQuotient_mono (by decide) (by omega)

end Later

namespace State

section Turns

variable (s)

@[simp] theorem report_world (label : String) (result : Result) :
    (s.report label result).world = s.world := rfl

@[simp] theorem makeAppointment_world (time : Binary64) (turn : Turn) :
    (s.makeAppointment time turn).world = s.world := rfl

@[simp] theorem accept_world (pool : Nat) (posting : Rendering.Posting) :
    (accept pool s posting).world = s.world := by
  cases posting <;> rfl

@[simp] theorem reportEnd_world (ended : Nat × Rendering.Outcome) :
    (s.reportEnd ended).world = s.world := by
  unfold reportEnd
  split <;> rfl

theorem foldl_same {α β : Type} (part : State → β) {f : State → α → State}
    (hf : ∀ s a, part (f s a) = part s) (all : List α) (s : State) :
    part (all.foldl f s) = part s := by
  induction all generalizing s with
  | nil => rfl
  | cons a all ih => exact (ih (f s a)).trans (hf s a)

theorem tell_clock (index : Nat) (event : Rendering.Event) :
    (s.tell index event).world.clock = s.world.clock := by
  unfold tell
  split
  · rfl
  · next pool _ =>
    dsimp only
    rw [foldl_same (·.world) fun s => accept_world s index, foldl_same (·.world) reportEnd_world]
    exact Rendering.Scene.handle_clock ⟨pool, s.world, []⟩ event

@[simp] theorem accept_sweepers (pool : Nat) (posting : Rendering.Posting) :
    (accept pool s posting).sweepers = s.sweepers := by
  cases posting <;> rfl

@[simp] theorem reportEnd_sweepers (ended : Nat × Rendering.Outcome) :
    (s.reportEnd ended).sweepers = s.sweepers := by
  unfold reportEnd
  split <;> rfl

theorem tell_sweepers (index : Nat) (event : Rendering.Event) :
    (s.tell index event).sweepers = s.sweepers := by
  unfold tell
  split
  · rfl
  · dsimp only
    rw [foldl_same (·.sweepers) fun s => accept_sweepers s index,
      foldl_same (·.sweepers) reportEnd_sweepers]
    rfl

@[simp] theorem failSweeper_world (sweeper : Sweeper) (failure : Failure) :
    (s.failSweeper sweeper failure).world = s.world := by
  unfold failSweeper
  dsimp only
  split <;> rfl

@[simp] theorem pause_world (sweeper : Sweeper) : (s.pause sweeper).world = s.world := by
  rw [pause]
  cases (Binary64.ofInt sweeper.settings.cleanupInterval).isFinite with
  | true => exact makeAppointment_world s _ _
  | false => exact failSweeper_world s sweeper _

theorem sweepOnce_clock (settings : Settings) (now : Binary64) :
    (s.sweepOnce settings now).1.world.clock = s.world.clock := by
  obtain ⟨files, hfiles⟩ := Cleanup.sweep_world s.world settings now
  have hworld : (s.sweepOnce settings now).1.world = { s.world with files := files } := hfiles
  rw [hworld]
  rfl

theorem forSweeper_clock (number : Nat) {f : Sweeper → State}
    (hf : ∀ sweeper, (f sweeper).world.clock = s.world.clock) :
    (s.forSweeper number f).world.clock = s.world.clock := by
  unfold forSweeper
  split
  · split
    · rfl
    · exact hf _
  · rfl

theorem take_sweep_clock (number : Nat) :
    (s.take (.sweep number)).world.clock = s.world.clock := by
  rw [take, forSweeper]
  cases s.sweeper? number with
  | none => rfl
  | some sweeper =>
    cases hended : sweeper.failure.isSome with
    | true => simp only [hended, if_true]
    | false =>
      simp only [hended, Bool.false_eq_true, if_false]
      rw [pause_world]
      generalize s.world.time = now
      exact sweepOnce_clock s sweeper.settings now

theorem take_clock (turn : Turn) : (s.take turn).world.clock = s.world.clock := by
  cases turn with
  | event pool event => exact tell_clock s pool event
  | pause number =>
    exact forSweeper_clock s number fun sweeper => congrArg World.clock (pause_world s sweeper)
  | sweepDue number => rfl
  | sweep number => exact take_sweep_clock s number

theorem round_clock : s.round.world.clock = s.world.clock := by
  unfold round
  exact foldl_same (·.world.clock) take_clock _
    { s with ready := [], agenda := (s.agenda.takeDue s.world.now).2 }

theorem settle_clock (fuel : Nat) : (s.settle fuel).world.clock = s.world.clock := by
  induction fuel generalizing s with
  | zero => rfl
  | succ fuel ih =>
    unfold settle
    split
    · rfl
    · exact (ih s.round).trans (round_clock s)

end Turns

section Waiting

theorem search_le {time : Binary64} {fuel ms due : Nat}
    (h : Alarm.search time fuel ms = some due) : ms ≤ due := by
  induction fuel generalizing ms with
  | zero => exact nomatch h
  | succ fuel ih =>
    rw [Alarm.search] at h
    split at h
    · exact (Option.some.inj h).le
    · exact Nat.le_of_succ_le (ih h)

theorem nextDue?_le {agenda : Agenda Turn} {now due : Nat} (h : agenda.nextDue? now = some due) :
    now ≤ due := by
  obtain ⟨appointment, -, hdue⟩ := Option.bind_eq_some_iff.mp h
  rw [Alarm.due?] at hdue
  split at hdue
  · exact (Option.some.inj hdue).le
  · exact nomatch hdue
  · exact Nat.le_trans (Nat.le_max_left _ _) (search_le hdue)

theorem setNow_later {now : Nat} (h : s.world.now ≤ now) : Later s (s.setNow now) := ⟨rfl, h⟩

theorem advanceTo_later (fuel : Nat) {target : Nat} (h : s.world.now ≤ target) :
    Later s (s.advanceTo fuel target) := by
  induction fuel generalizing s with
  | zero => exact setNow_later h
  | succ fuel ih =>
    unfold advanceTo
    split
    · exact setNow_later h
    · next due hdue =>
      split
      · exact setNow_later h
      · next hreached =>
        have hthere := (setNow_later (nextDue?_le hdue)).trans
          (.of_clock (settle_clock (s.setNow due) settleFuel))
        have hnow : ((s.setNow due).settle settleFuel).world.now = due :=
          (Prod.mk.inj (settle_clock (s.setNow due) settleFuel)).2
        exact hthere.trans (ih (hnow.trans_le (Nat.not_lt.mp hreached)))

end Waiting

section Steps

variable (s)

@[simp] theorem addTask_world (label : String) (purpose : Purpose) (pool : Option Nat) :
    (s.addTask label purpose pool).2.world = s.world := rfl

@[simp] theorem conclude_world (label : String) (purpose : Purpose) (result : Result) :
    (s.conclude label purpose result).world = s.world := rfl

@[simp] theorem begin_world (label : String) (purpose : Purpose) (pool : Nat)
    (event : Nat → Rendering.Event) : (s.begin label purpose pool event).world = s.world := rfl

@[simp] theorem stopSweeper_world (number : Nat) : (s.stopSweeper number).world = s.world := rfl

@[simp] theorem addSweeper_world (settings : Settings) (task : Option Nat) :
    (s.addSweeper settings task).2.world = s.world := rfl

variable {s} in
theorem servingPool_world {index : Nat} (h : s.servingPool = .ok (index, t)) :
    t.world = s.world := by
  rw [servingPool] at h
  split at h
  · cases h
    rfl
  · cases hsettings : s.settings with
    | error failure => rw [hsettings] at h; exact nomatch h
    | ok settings =>
      rw [hsettings] at h
      cases hpool : Rendering.Pool.new settings with
      | error failure => simp [bind, Except.bind, hpool] at h
      | ok pool =>
        simp only [bind, Except.bind, hpool, pure, Except.pure, Except.ok.injEq,
          Prod.mk.injEq] at h
        rw [← h.2]
        rfl

theorem startRender_world (label : String) (reference : Option String) (moment spec : Json.Value)
    (jobId : Option String) (watched : Bool) :
    (s.startRender label reference moment spec jobId watched).world = s.world := by
  unfold startRender
  dsimp only
  split
  · rfl
  · split
    · rfl
    · next pool t hserving =>
      exact (begin_world t label _ pool _).trans (servingPool_world hserving)

theorem startCancel_world (label jobId : String) :
    (s.startCancel label jobId).world = s.world := by
  unfold startCancel
  split
  · rfl
  · next pool t hserving =>
    exact (begin_world t label .cancel pool _).trans (servingPool_world hserving)

theorem abort_world (label : String) : (s.abort label).world = s.world := by
  unfold abort
  split
  · rfl
  · split
    · rfl
    · split <;> rfl
    · rfl

theorem startSweeps_world (label : String) : (s.startSweeps label).world = s.world := by
  unfold startSweeps
  split <;> rfl

@[simp] theorem ensureDirectory_clock (directory : String) :
    (s.ensureDirectory directory).1.world.clock = s.world.clock := rfl

variable {s} in
theorem openPool_world {settings : Settings} (h : s.openPool settings = .ok t) :
    t.world = s.world := by
  rw [openPool] at h
  cases hpool : Rendering.Pool.new settings with
  | error failure => simp [bind, Except.bind, hpool] at h
  | ok pool =>
    simp only [bind, Except.bind, hpool, pure, Except.pure, Except.ok.injEq] at h
    rw [← h]
    rfl

theorem setUp_clock (settings : Settings) :
    (s.setUp settings).1.world.clock = s.world.clock := by
  have hinput := ensureDirectory_clock s settings.inputDirectory
  unfold setUp
  split
  · next hmade => rw [hmade] at hinput; exact hinput
  · next u hmade =>
    rw [hmade] at hinput
    have houtput := ensureDirectory_clock u settings.outputDirectory
    split
    · next hmade => rw [hmade] at houtput; exact houtput.trans hinput
    · next hmade =>
      rw [hmade] at houtput
      split
      · exact houtput.trans hinput
      · next hopen =>
        exact (congrArg World.clock (openPool_world hopen)).trans (houtput.trans hinput)

theorem startup_clock (label : String) : (s.startup label).world.clock = s.world.clock := by
  unfold startup
  dsimp only
  split
  · rfl
  · next settings _ =>
    have hsetUp := setUp_clock { s with appSweeper := none } settings
    split <;> next hmade => rw [hmade] at hsetUp; exact hsetUp

theorem shutdown_world (label : String) : (s.shutdown label).world = s.world := by
  unfold shutdown
  split
  · rfl
  · dsimp only
    split <;> rfl

theorem startRequest_world (label : String) (request : Http.Request) :
    (s.startRequest label request).world = s.world := by
  unfold startRequest
  split <;> rfl

end Steps

/-- A step that is not a sweep leaves the clock as it is, unless it waits. -/
theorem perform_later (s : State) (step : Step) : Later s (s.perform step) := by
  cases step with
  | start label reference moment spec jobId watched =>
    exact .of_world (startRender_world s label reference moment spec jobId watched)
  | cancel label jobId => exact .of_world (startCancel_world s label jobId)
  | abort label => exact .of_world (abort_world s label)
  | advance ms => exact advanceTo_later advanceFuel (Nat.le_add_right s.world.now ms)
  | files changes => exact .of_clock rfl
  | environment values => exact .of_world rfl
  | sweep now => exact .refl s
  | sweeps label => exact .of_world (startSweeps_world s label)
  | startup label => exact .of_clock (startup_clock s label)
  | shutdown label => exact .of_world (shutdown_world s label)
  | request label request => exact .of_world (startRequest_world s label request)

theorem sweep_clock {now : Option Binary64} {removed : List String}
    (h : s.sweep now = .ok (t, removed)) : t.world.clock = s.world.clock := by
  rw [sweep] at h
  cases hsettings : s.settings with
  | error failure => rw [hsettings] at h; exact nomatch h
  | ok settings =>
    rw [hsettings] at h
    generalize now.getD s.world.time = time at h
    have hswept : (s.sweepOnce settings time).1 = t := congrArg Prod.fst (Except.ok.inj h)
    rw [← hswept]
    exact sweepOnce_clock s settings time

def following (s : State) (step : Step) : State := (s.clear.perform step).settle settleFuel

theorem step_following {step : Step} (h : ∀ now, step ≠ .sweep now) :
    s.step step = .ok (s.following step, (s.following step).entry none) := by
  rw [State.step]
  · rfl
  · exact h

theorem clear_later (s : State) : Later s s.clear := .of_clock rfl

theorem following_later (s : State) (step : Step) : Later s (s.following step) :=
  ((clear_later s).trans (perform_later s.clear step)).trans
    (.of_clock (settle_clock (s.clear.perform step) settleFuel))

theorem step_later {step : Step} {entry : Entry} (h : s.step step = .ok (t, entry)) :
    Later s t := by
  by_cases hsweep : ∃ now, step = .sweep now
  · obtain ⟨now, rfl⟩ := hsweep
    rw [State.step] at h
    cases hswept : s.clear.sweep now with
    | error failure => rw [hswept] at h; exact nomatch h
    | ok swept =>
      rw [hswept] at h
      have hstate : swept.1 = t := congrArg Prod.fst (Except.ok.inj h)
      rw [← hstate]
      exact (clear_later s).trans (.of_clock (sweep_clock hswept))
  · rw [step_following (not_exists.mp hsweep)] at h
    have hstate : s.following step = t := congrArg Prod.fst (Except.ok.inj h)
    rw [← hstate]
    exact following_later s step

end State

theorem Next.later (h : Next s t) : Later s t := by
  cases h with
  | turn turn => exact .of_clock (State.take_clock s turn)
  | time now hnow => exact State.setNow_later hnow
  | step hstep => exact State.step_later hstep

theorem Next.following (s : State) (step : Step) (h : ∀ now, step ≠ .sweep now) :
    Next s (s.following step) :=
  .step (State.step_following h)

/-- Whatever comes, in whatever order, it is never earlier than it was. -/
theorem Reaches.later (h : Reaches s t) : Later s t := by
  induction h with
  | refl => exact .refl s
  | tail _ hnext ih => exact ih.trans hnext.later

end Service

end ClipRender
