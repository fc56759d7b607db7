import ClipRender.Proofs.Rendering.Handling
import ClipRender.Proofs.Rendering.Parting

set_option autoImplicit false

/-!
Every pool that a run reaches is in order, and no task comes twice.
-/

namespace ClipRender.Rendering

theorem Step.Ends.only {step : Step} {task other : Nat} {outcome last : Outcome}
    (hends : step.Ends task outcome) (hended : step.after.pool.ended = [(other, last)]) :
    task = other ∧ outcome = last := by
  rw [Step.Ends, hended] at hends
  exact Prod.mk.inj (List.mem_singleton.mp hends)

theorem Step.ends_of_eq {step : Step} {task : Nat} {outcome : Outcome}
    (hended : step.after.pool.ended = [(task, outcome)]) : step.Ends task outcome := by
  rw [Step.Ends, hended]
  exact List.mem_singleton_self _

theorem Carries.answered {past : List Step} {step : Step} {task : Nat} {outcome : Outcome}
    (h : Carries past step.found step.event step.after) (hends : step.Ends task outcome) :
    Answered past step.found step.after step.event task outcome := by
  rcases h.ended with hnone | ⟨other, last, hlast, hanswered⟩
  · rw [Step.Ends, hnone] at hends
    exact absurd hends List.not_mem_nil
  · obtain ⟨rfl, rfl⟩ := hends.only hlast
    exact hanswered

namespace Pool

variable {past : List Step} {pool : Pool}

theorem Links.later {spawned later : Nat} (h : pool.Links spawned) (hle : spawned ≤ later) :
    pool.Links later :=
  { h with
    settled := h.settled
    guarded := h.guarded
    pidsKnown := fun process hprocess => Nat.le_trans (h.pidsKnown process hprocess) hle
    activeKnown := fun entry hentry => Nat.le_trans (h.activeKnown entry hentry) hle
    lookouts := fun l hl => (h.lookouts l hl).imp_left fun hpid => Nat.le_trans hpid hle
    stoppers := fun x hx => (h.stoppers x hx).imp_right fun hpid => Nat.le_trans hpid hle }

theorem Excuses.later (h : pool.Excuses past) (step : Step) : pool.Excuses (step :: past) where
  aborted := by
    intro l hl hrecalled
    have hblamed := h.aborted l hl hrecalled
    cases howner : l.owner with
    | render task =>
      rw [howner] at hblamed
      exact Aborted.cons step hblamed
    | stopper number =>
      rw [howner] at hblamed
      intro x hx hnumber
      obtain ⟨task, hworks, haborted⟩ := hblamed x hx hnumber
      exact ⟨task, hworks, haborted.cons step⟩
  overdue := by
    intro l hl hwhy
    have hexcused := h.overdue l hl hwhy
    cases howner : l.owner with
    | render task =>
      rw [howner] at hexcused
      exact Overdue.cons step hexcused
    | stopper number => trivial
  shielded r hr hphase := (h.shielded r hr hphase).cons step
  timeouts x hx task hclient := (h.timeouts x hx task hclient).cons step
  ordered r hr := (h.ordered r hr).cons step
  clients x hx task hclient := (h.clients x hx task hclient).cons step
  calls := by
    intro x hx task hclient
    obtain ⟨jobId, hcancels, hown⟩ := h.calls x hx task hclient
    exact ⟨jobId, hcancels.cons step, hown⟩

end Pool

theorem Pool.new_eq {settings : Settings} {pool : Pool} (h : Pool.new settings = .ok pool) :
    0 ≤ settings.maxRenders ∧
      pool = ⟨settings, settings.maxRenders.toNat, [], [], [], [], [], [], [], [], 0, [], []⟩ := by
  rw [Pool.new] at h
  split at h
  · contradiction
  · next hsome => exact ⟨Int.not_lt.mp hsome, (Except.ok.inj h).symm⟩

namespace InOrder

theorem later {past : List Step} {spawned : Nat} {pool : Pool} (h : InOrder past spawned pool)
    (step : Step) {now : Nat} (hle : spawned ≤ now) : InOrder (step :: past) now pool :=
  ⟨h.tables, h.links.later hle, h.excuses.later step⟩

theorem new {settings : Settings} {pool : Pool} (h : Pool.new settings = .ok pool) :
    InOrder [] 0 pool ∧ pool.settings = settings ∧ pool.ended = [] := by
  obtain ⟨_, rfl⟩ := Pool.new_eq h
  refine ⟨⟨?_, ?_, ?_⟩, rfl, rfl⟩
  · constructor <;> simp [Pool.held]
  · constructor <;> first | exact ⟨by simp, by simp, by simp, by simp⟩ | simp
  · constructor <;> simp

end InOrder

namespace Run

variable {settings : Settings} {steps past : List Step} {step : Step} {pool : Pool} {spawned : Nat}

theorem last (h : Run settings (step :: past) pool spawned) :
    ∃ earlier, Run settings past step.before earlier ∧ earlier ≤ step.world.spawned ∧
      pool = step.after.pool ∧ spawned = step.after.world.spawned ∧
      ∀ task ∈ step.event.caller?, ∀ other ∈ past, other.event.caller? ≠ some task := by
  cases h with
  | next _ hrun hbefore hle hfresh =>
    subst hbefore
    exact ⟨_, hrun, hle, rfl, rfl, hfresh⟩

theorem earlier (recent : List Step) (h : Run settings (recent ++ past) pool spawned) :
    ∃ pool spawned, Run settings past pool spawned := by
  induction recent generalizing pool spawned with
  | nil => exact ⟨pool, spawned, h⟩
  | cons step rest ih =>
    obtain ⟨_, hrun, _⟩ := h.last
    exact ih hrun

theorem begins_once (h : Run settings steps pool spawned) {first second : Step}
    (hfirst : first ∈ steps) (hsecond : second ∈ steps) {task : Nat}
    (hcaller : first.event.caller? = some task) (hagain : second.event.caller? = some task) :
    first = second := by
  induction h with
  | start => contradiction
  | next step _ _ _ hfresh ih =>
    rcases List.mem_cons.mp hfirst with rfl | hold
    · rcases List.mem_cons.mp hsecond with rfl | hother
      · rfl
      · exact absurd hagain (hfresh task hcaller second hother)
    · rcases List.mem_cons.mp hsecond with rfl | hother
      · exact absurd hcaller (hfresh task hagain first hold)
      · exact ih hold hother

theorem apart (h : Run settings steps pool spawned) {task other : Nat} {jobId : String}
    (hordered : Ordered steps task) (hcancels : Cancels steps other jobId) : task ≠ other := by
  rintro rfl
  obtain ⟨first, hfirst, order, hbrings⟩ := hordered
  obtain ⟨second, hsecond, hwants⟩ := hcancels
  obtain rfl := h.begins_once hfirst hsecond (by rw [hbrings]; rfl) (by rw [hwants]; rfl)
  rw [hbrings] at hwants
  contradiction

theorem cancels_once (h : Run settings steps pool spawned) {task : Nat} {first second : String}
    (hfirst : Cancels steps task first) (hsecond : Cancels steps task second) : first = second := by
  obtain ⟨one, hone, hwants⟩ := hfirst
  obtain ⟨other, hother, hagain⟩ := hsecond
  obtain rfl := h.begins_once hone hother (by rw [hwants]; rfl) (by rw [hagain]; rfl)
  exact (Event.cancel.inj (hwants.symm.trans hagain)).2

/-- Nobody has worked for a task before it brings its order. -/
theorem unknown (h : InOrder past spawned step.before)
    (hfresh : ∀ task ∈ step.event.caller?, ∀ other ∈ past, other.event.caller? ≠ some task) :
    ∀ task order, step.event = .order task order →
      (∀ q ∈ step.before.renders, q.task ≠ task) ∧
        ∀ x ∈ step.before.stoppers, x.client.render? ≠ some task := by
  have ordered : ∀ task, Ordered past task → step.event.caller? ≠ some task := by
    rintro task ⟨other, hother, order, hevent⟩ hcaller
    exact hfresh task hcaller other hother (by rw [hevent]; rfl)
  intro task order hevent
  refine ⟨?_, ?_⟩
  · rintro q hq rfl
    exact ordered _ (h.excuses.ordered q hq) (by rw [hevent]; rfl)
  · intro x hx hclient
    exact ordered _ (h.excuses.clients x hx task hclient) (by rw [hevent]; rfl)

theorem next_course (h : InOrder past spawned step.before) (hle : spawned ≤ step.world.spawned)
    (hfresh : ∀ task ∈ step.event.caller?, ∀ other ∈ past, other.event.caller? ≠ some task) :
    InOrder (step :: past) step.found.world.spawned step.found.pool ∧
      Course (step :: past) step.found step.event step.after := by
  have order := h.later step hle
  exact ⟨order.elsewhere rfl, step.course order (unknown h hfresh)⟩

theorem inOrder (h : Run settings steps pool spawned) :
    InOrder steps spawned pool ∧ pool.settings = settings := by
  induction h with
  | start hnew =>
    obtain ⟨order, hsettings, _⟩ := InOrder.new hnew
    exact ⟨order, hsettings⟩
  | @next past pool spawned step hrun hbefore hle hfresh ih =>
    subst hbefore
    obtain ⟨found, hcourse⟩ := next_course ih.1 hle hfresh
    refine ⟨found.course hcourse, ?_⟩
    rw [← ih.2]
    rcases hcourse.splits found with hcarries | ⟨_, _, _, _, hparts, _⟩
    · exact hcarries.settings
    · exact hparts.settings

/-- The last step of a run takes one of the courses, from a pool in order. -/
theorem course (h : Run settings (step :: past) pool spawned) :
    InOrder (step :: past) step.found.world.spawned step.found.pool ∧
      Course (step :: past) step.found step.event step.after := by
  obtain ⟨_, hrun, hle, _, _, hfresh⟩ := h.last
  exact next_course hrun.inOrder.1 hle hfresh

theorem splits (h : Run settings (step :: past) pool spawned) :
    Carries (step :: past) step.found step.event step.after ∨
      ∃ r ∈ step.before.renders, ∃ outcome, step.event.caller? = none ∧
        Parts (step :: past) (GivesUp step.before · step.event) step.found r outcome step.after := by
  obtain ⟨found, hcourse⟩ := h.course
  rcases hcourse.splits found with hcarries | ⟨r, hr, outcome, hcaller, hparts, _⟩
  · exact .inl hcarries
  · refine .inr ⟨r, hr, outcome, hcaller, { hparts with stopped := hparts.stopped.imp_right ?_ }⟩
    exact fun hgives => hgives.elsewhere rfl rfl rfl

theorem fresh (h : Run settings (step :: past) pool spawned) {task : Nat}
    (hordered : Ordered past task) : step.event.caller? ≠ some task := by
  obtain ⟨_, _, _, _, _, hfresh⟩ := h.last
  obtain ⟨other, hother, order, hevent⟩ := hordered
  intro hcaller
  exact hfresh task hcaller other hother (by rw [hevent]; rfl)

theorem ordered_before (h : Run settings (step :: past) pool spawned) {r : Render}
    (hr : r ∈ step.before.renders) : Ordered past r.task := by
  obtain ⟨_, hrun, _⟩ := h.last
  exact hrun.inOrder.1.excuses.ordered r hr

/-- The end of a task that no render belongs to is told to a task that calls. -/
theorem quiet (h : Run settings (step :: past) pool spawned)
    (hcarries : Carries (step :: past) step.found step.event step.after) {task : Nat}
    (hordered : Ordered past task) (outcome : Outcome) : ¬ step.Ends task outcome := by
  intro hends
  have stranger := h.fresh hordered
  have hanswered := hcarries.answered hends
  generalize step.event = event at stranger hanswered
  cases hanswered with
  | refused => exact stranger rfl
  | found => exact stranger rfl
  | notFound => exact stranger rfl
  | stopped hcancels => exact h.apart (hordered.cons step) hcancels rfl

theorem gone (h : Run settings (step :: past) pool spawned) {task : Nat}
    (hordered : Ordered past task) (hgone : ∀ q ∈ step.before.renders, q.task ≠ task) :
    ∀ q ∈ step.after.pool.renders, q.task ≠ task := by
  intro q hq htask
  rcases h.splits with hcarries | ⟨_, _, _, _, hparts⟩
  · rcases hcarries.former q hq with ⟨x, hx, hsame⟩ | ⟨_, order, hevent⟩
    · exact hgone x hx ((Render.task_eq hsame).trans htask)
    · refine h.fresh hordered ?_
      rw [hevent, htask]
      rfl
  · obtain ⟨x, hx, _, hsame⟩ := hparts.former hq
    exact hgone x hx ((Render.task_eq hsame).trans htask)

theorem ended_before (h : Run settings (step :: past) pool spawned) {task : Nat}
    (hordered : Ordered past task) (hgone : ∀ q ∈ step.before.renders, q.task ≠ task)
    (outcome : Outcome) : ¬ step.Ends task outcome := by
  intro hends
  rcases h.splits with hcarries | ⟨q, hq, _, _, hparts⟩
  · exact h.quiet hcarries hordered outcome hends
  · exact hgone q hq (hends.only hparts.ended).1.symm

/-- A render ends at the step, or goes on with its engine and its mark. -/
theorem fate (h : Run settings (step :: past) pool spawned) {r : Render}
    (hr : r ∈ step.before.renders) :
    (∃ outcome, step.after.pool.ended = [(r.task, outcome)] ∧
        Parts (step :: past) (GivesUp step.before · step.event) step.found r outcome step.after) ∨
      Stays step.found r step.after := by
  obtain ⟨order, _⟩ := h.course
  rcases h.splits with hcarries | ⟨q, hq, outcome, _, hparts⟩
  · exact .inr (hcarries.stays hr fun outcome => h.quiet hcarries (h.ordered_before hr) outcome)
  · by_cases hsame : r = q
    · subst hsame
      exact .inl ⟨outcome, hparts.ended, hparts⟩
    · exact .inr (hparts.stays order.tables rfl hr hq hsame)

theorem departs (h : Run settings (step :: past) pool spawned) {r : Render}
    (hr : r ∈ step.before.renders) {outcome : Outcome} (hends : step.Ends r.task outcome) :
    Departs (step :: past) (Concludes step.found step.event) step.found r outcome step.after := by
  obtain ⟨order, hcourse⟩ := h.course
  rcases hcourse.splits order with hcarries | ⟨q, hq, last, _, hparts, hdeparts⟩
  · exact absurd hends (h.quiet hcarries (h.ordered_before hr) outcome)
  · obtain ⟨htask, rfl⟩ := hends.only hparts.ended
    obtain rfl := order.tables.eq_of_task hr hq htask
    exact hdeparts

end Run

end ClipRender.Rendering
