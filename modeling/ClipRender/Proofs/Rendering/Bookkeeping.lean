import ClipRender.Proofs.Rendering.Reach

set_option autoImplicit false

/-!
The books of a pool balance in every run: tables and slots fit each other, a render that ends leaves
nothing in them, and a job that is ordered anew starts without the marks of an earlier one.
-/

namespace ClipRender.Rendering

/-- The tables fit each other, and the slots add up. -/
structure Pool.Balanced (pool : Pool) : Prop where
  active : ∀ entry ∈ pool.active, entry.1 ∈ pool.inFlight
  flagged : ∀ id ∈ pool.flagged, id ∈ pool.inFlight
  slots : (pool.held : Int) + pool.free = pool.settings.maxRenders
  held : (pool.held : Int) ≤ pool.settings.maxRenders
  holders : ∀ entry ∈ pool.active, ∃ r ∈ pool.renders, r.job.id = entry.1 ∧ r.holdsSlot = true
  engines : (pool.active.length : Int) ≤ pool.settings.maxRenders

structure Step.Settles (step : Step) : Prop where
  /-- Renders leave the pool, with their slots, when they end and not otherwise. -/
  leaves : ∀ r ∈ step.before.renders, (∃ outcome, step.Ends r.task outcome) ↔
    ∀ q ∈ step.after.pool.renders, q.task ≠ r.task
  clears : ∀ r ∈ step.before.renders, ∀ outcome, step.Ends r.task outcome →
    r.job.id ∉ step.after.pool.inFlight ∧ r.job.id ∉ step.after.pool.flagged ∧
      ∀ entry ∈ step.after.pool.active, entry.1 ≠ r.job.id
  /-- An order that fails at once leaves the tables and the slots as they were. -/
  refuses : ∀ task order outcome, step.event = .order task order → step.Ends task outcome →
    step.after.pool = { step.before with
      statuses := step.after.pool.statuses, ended := step.after.pool.ended }
  /-- Only a job that is in flight is not rendered again. -/
  accepts : ∀ task order id, step.event = .order task order →
    step.Ends task (.failed (.reported (.jobInFlight id))) → id ∈ step.before.inFlight
  /-- Only a marked job is told that it was cancelled. -/
  cancels : ∀ r ∈ step.before.renders,
    step.Ends r.task (.failed (.reported .cancelledInQueue)) ∨
      step.Ends r.task (.failed (.reported .cancelledByCaller)) →
    r.job.id ∈ step.before.flagged

namespace Pool

theorem Tables.balanced {pool : Pool} (h : pool.Tables 0) (hslots : 0 ≤ pool.settings.maxRenders) :
    pool.Balanced := by
  have slots := h.slots
  have total : (pool.held : Int) + pool.free = pool.settings.maxRenders := by omega
  have few := h.active_length_le
  refine ⟨?_, h.flagged, total, by omega, ?_, by omega⟩
  · intro entry hentry
    obtain ⟨r, hr, hid, _⟩ := h.active entry hentry
    exact (h.inFlight _).mpr (List.mem_map.mpr ⟨r, hr, hid⟩)
  · intro entry hentry
    obtain ⟨r, hr, hid, hengine⟩ := h.active entry hentry
    exact ⟨r, hr, hid, Render.holdsSlot_of_hasEngine hengine⟩

end Pool

namespace Run

variable {settings : Settings} {steps past : List Step} {step : Step} {pool : Pool} {spawned : Nat}

theorem slots_nonneg (h : Run settings steps pool spawned) : 0 ≤ settings.maxRenders := by
  induction h with
  | start hnew => exact (Pool.new_eq hnew).1
  | next _ _ _ _ _ ih => exact ih

theorem leaves (h : Run settings (step :: past) pool spawned) {r : Render}
    (hr : r ∈ step.before.renders) : (∃ outcome, step.Ends r.task outcome) ↔
      ∀ q ∈ step.after.pool.renders, q.task ≠ r.task := by
  rcases h.fate hr with ⟨outcome, hended, hparts⟩ | hstays
  · refine ⟨fun _ q hq hsame => ?_, fun _ => ⟨outcome, Step.ends_of_eq hended⟩⟩
    obtain ⟨x, _, hother, hordered⟩ := hparts.former hq
    exact hother ((Render.task_eq hordered).trans hsame)
  · obtain ⟨q, hq, hsame⟩ := hstays.latter
    constructor
    · rintro ⟨outcome, hends⟩
      exact absurd hends (hstays.quiet outcome)
    · intro hgone
      exact absurd (Render.task_eq hsame) (hgone q hq)

theorem ending (h : Run settings (step :: past) pool spawned) {r : Render}
    (hr : r ∈ step.before.renders) {outcome : Outcome} (hends : step.Ends r.task outcome) :
    Parts (step :: past) (GivesUp step.before · step.event) step.found r outcome step.after := by
  rcases h.fate hr with ⟨other, hended, hparts⟩ | hstays
  · obtain ⟨_, rfl⟩ := hends.only hended
    exact hparts
  · exact absurd hends (hstays.quiet outcome)

theorem refusal (h : Run settings (step :: past) pool spawned) {task : Nat} {order : Order}
    {outcome : Outcome} (hevent : step.event = .order task order)
    (hends : step.Ends task outcome) :
    Answered (step :: past) step.found step.after (.order task order) task outcome := by
  have hordered : Ordered (step :: past) task := ⟨step, List.mem_cons_self, order, hevent⟩
  rcases h.splits with hcarries | ⟨_, _, _, hcaller, _⟩
  · rw [← hevent]
    exact hcarries.answered hends
  · rw [hevent] at hcaller
    contradiction

theorem settles (h : Run settings (step :: past) pool spawned) : step.Settles where
  leaves _ hr := h.leaves hr
  clears := by
    intro r hr outcome hends
    have hparts := h.ending hr hends
    refine ⟨?_, ?_, ?_⟩
    · rw [hparts.inFlight]
      simp
    · rw [hparts.flagged]
      simp
    · rw [hparts.active]
      exact fun entry hentry => of_decide_eq_true (List.mem_filter.mp hentry).2
  refuses := by
    intro task order outcome hevent hends
    cases h.refusal hevent hends with
    | refused hpool => exact hpool
    | stopped hcancels =>
      exact absurd rfl (h.apart ⟨step, List.mem_cons_self, order, hevent⟩ hcancels)
  accepts := by
    intro task order id hevent hends
    cases h.refusal hevent hends with
    | refused _ hwhy => exact hwhy id rfl
    | stopped hcancels =>
      exact absurd rfl (h.apart ⟨step, List.mem_cons_self, order, hevent⟩ hcancels)
  cancels := by
    intro r hr hends
    rcases hends with hends | hends
    all_goals
      obtain ⟨q, other, hsame, hflagged, _, hverdict, _⟩ := (h.ending hr hends).verdict
      have hjob : q.job = r.job := Render.job_eq hsame
    · cases hverdict with
      | cancelledInQueue _ hflag => rwa [hjob, hflagged] at hflag
      | concluded _ _ hwhy => simpa using hwhy _ rfl
    · cases hverdict with
      | cancelledByCaller _ hflag => rwa [hjob, hflagged] at hflag
      | concluded _ _ hwhy => simpa using hwhy _ rfl

/-- A mark is younger than the order. -/
theorem marked (recent : List Step) {task : Nat} {order : Order}
    (h : Run settings (recent ++ step :: past) pool spawned)
    (hevent : step.event = .order task order) {r : Render} (hr : r ∈ pool.renders)
    (htask : r.task = task) (hflag : r.job.id ∈ pool.flagged) :
    ∃ later ∈ recent, ∃ caller, later.event = .cancel caller r.job.id := by
  induction recent generalizing pool spawned r with
  | nil =>
    obtain ⟨found, _⟩ := h.course
    obtain ⟨_, _, _, rfl, _⟩ := h.last
    rcases h.splits with hcarries | ⟨_, _, _, hcaller, _⟩
    · rcases hcarries.former r hr with ⟨x, hx, hsame⟩ | ⟨hid, _⟩
      · have known := h.fresh (h.ordered_before hx)
        rw [hevent, Render.task_eq hsame, htask] at known
        exact absurd rfl known
      · rcases (hcarries.flagged _).mp hflag with hold | ⟨hold, _⟩
        · exact absurd (found.tables.flagged _ hold) hid
        · exact absurd hold hid
    · rw [hevent] at hcaller
      contradiction
  | cons last rest ih =>
    obtain ⟨_, hrun, _, rfl, _⟩ := h.last
    have before : ∀ x ∈ last.before.renders, x.ordered = r.ordered →
        r.job.id ∈ last.before.flagged →
        ∃ later ∈ last :: rest, ∃ caller, later.event = .cancel caller r.job.id := by
      intro x hx hsame hold
      obtain ⟨later, hlater, caller, hcancel⟩ := ih hrun hx ((Render.task_eq hsame).trans htask)
        (by rw [Render.job_eq hsame]; exact hold)
      rw [Render.job_eq hsame] at hcancel
      exact ⟨later, List.mem_cons_of_mem _ hlater, caller, hcancel⟩
    rcases h.splits with hcarries | ⟨q, _, _, _, hparts⟩
    · rcases hcarries.former r hr with ⟨x, hx, hsame⟩ | ⟨_, other, hnew⟩
      · rcases (hcarries.flagged _).mp hflag with hold | ⟨_, caller, hcancel⟩
        · exact before x hx hsame hold
        · exact ⟨last, List.mem_cons_self, caller, hcancel⟩
      · have known := h.fresh ⟨step, List.mem_append_right _ List.mem_cons_self, order, hevent⟩
        rw [hnew, htask] at known
        exact absurd rfl known
    · obtain ⟨x, hx, _, hsame⟩ := hparts.former hr
      rw [hparts.flagged] at hflag
      exact before x hx hsame (List.mem_filter.mp hflag).1

/-- In every run the books balance, each step settles them, and a job that is ordered anew is marked
only by a later call. -/
theorem bookkeeping (h : Run settings steps pool spawned) :
    pool.settings = settings ∧ pool.Balanced ∧ (∀ step ∈ steps, step.Settles) ∧
      ∀ recent step past, steps = recent ++ step :: past →
        ∀ task order, step.event = .order task order →
          ∀ r ∈ pool.renders, r.task = task → r.job.id ∈ pool.flagged →
            ∃ later ∈ recent, ∃ caller, later.event = .cancel caller r.job.id := by
  obtain ⟨order, hsettings⟩ := h.inOrder
  refine ⟨hsettings, order.tables.balanced (by rw [hsettings]; exact h.slots_nonneg), ?_, ?_⟩
  · intro step hstep
    obtain ⟨recent, past, rfl⟩ := List.append_of_mem hstep
    obtain ⟨_, _, hrun⟩ := h.earlier recent
    exact hrun.settles
  · rintro recent step past rfl task order hevent r hr htask hflag
    exact h.marked recent hevent hr htask hflag

/-- A job is cancelled, and ordered anew while another one has the slot. -/
def reordering : List Event :=
  [.order 1 (Sample.order "a"), .order 2 (Sample.order "b"), .look 1, .cancel 3 "a", .look 1,
    .announce 1, .turn (.render 1), .look 3, .announce 3, .turn (.stopper 2), .turn (.render 2),
    .order 4 (Sample.order "a")]

theorem bookkeeping_reordering :
    (Sample.play false reordering).pool.Balanced ∧
      (∀ step ∈ (Sample.play false reordering).steps, step.Settles) ∧
      (Sample.play false reordering).pool.inFlight = ["a", "b"] ∧
      (Sample.play false reordering).pool.active = [("b", 2)] ∧
      (Sample.play false reordering).pool.flagged = [] := by
  obtain ⟨_, balanced, settled, _⟩ := bookkeeping (Sample.run_play false reordering (by decide))
  exact ⟨balanced, settled, by decide +kernel, by decide +kernel, by decide +kernel⟩

end Run

end ClipRender.Rendering
