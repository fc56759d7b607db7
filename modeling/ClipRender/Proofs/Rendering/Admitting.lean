import ClipRender.Proofs.Rendering.Reach

set_option autoImplicit false

/-!
From the order to the render: every render in the pool comes from an order that was admitted, and
its task has not ended since.
-/

namespace ClipRender.Rendering

/-- An order of the task, for which a job is made. -/
def Step.Makes (step : Step) (task : Nat) (job : Job) : Prop :=
  ∃ order world, step.event = .order task order ∧ step.found.createJob order = (world, .ok job)

/-- The render stands for the order: its job has been made, and its command as well. -/
structure Step.Admits (step : Step) (r : Render) : Prop where
  admitted : ∃ order files, step.event = .order r.task order ∧
    Rendering.Admits step.found order r files
  command : command step.before.settings r.job r.part.text = .ok r.command

def Unended (steps : List Step) (task : Nat) : Prop :=
  ∀ step ∈ steps, ∀ outcome, ¬ step.Ends task outcome

/-- A job was made for the task, which has not ended since. -/
def Underway (steps : List Step) (task : Nat) (job : Job) : Prop :=
  ∃ recent begun past, steps = recent ++ begun :: past ∧ begun.Makes task job ∧
    Unended (recent ++ [begun]) task

theorem Admits.elsewhere {s : Scene} {order : Order} {r q : Render} {files : Files.Tree}
    (h : Admits s order r files) (hsame : q.ordered = r.ordered) : Admits s order q files := by
  refine ⟨?_, h.directory, ?_, ?_⟩
  · rw [Render.job_eq hsame]
    exact h.job
  · rw [Render.output_eq hsame, Render.job_eq hsame]
    exact h.output
  · rw [Render.part_eq hsame, Render.output_eq hsame]
    exact h.part

theorem Admits.unique {s : Scene} {order : Order} {r q : Render} {first second : Files.Tree}
    (h : Admits s order r first) (k : Admits s order q second) :
    q.job = r.job ∧ q.output = r.output ∧ q.part = r.part := by
  obtain ⟨world, hjob⟩ := h.job
  obtain ⟨other, hagain⟩ := k.job
  have job : q.job = r.job := Except.ok.inj (Prod.mk.inj (hagain.symm.trans hjob)).2
  have output : q.output = r.output := by rw [k.output, h.output, job]
  exact ⟨job, output, by rw [k.part, h.part, output]⟩

theorem Step.Admits.elsewhere {step : Step} {r q : Render} (h : step.Admits r)
    (hsame : q.ordered = r.ordered) : step.Admits q := by
  obtain ⟨order, files, hevent, hadmits⟩ := h.admitted
  refine ⟨⟨order, files, ?_, hadmits.elsewhere hsame⟩, ?_⟩
  · rw [Render.task_eq hsame]
    exact hevent
  · rw [Render.job_eq hsame, Render.part_eq hsame, Render.command_eq hsame]
    exact h.command

theorem Step.Admits.makes {step : Step} {r : Render} (h : step.Admits r) :
    step.Makes r.task r.job := by
  obtain ⟨order, _, hevent, hadmits⟩ := h.admitted
  obtain ⟨world, hjob⟩ := hadmits.job
  exact ⟨order, world, hevent, hjob⟩

theorem Step.Makes.unique {step : Step} {task : Nat} {first second : Job}
    (h : step.Makes task first) (k : step.Makes task second) : first = second := by
  obtain ⟨order, world, hevent, hjob⟩ := h
  obtain ⟨other, later, hsame, hagain⟩ := k
  obtain ⟨_, rfl⟩ := Event.order.inj (hevent.symm.trans hsame)
  exact Except.ok.inj (Prod.mk.inj (hjob.symm.trans hagain)).2

theorem Unended.cons {steps : List Step} {step : Step} {task : Nat} (h : Unended steps task)
    (hquiet : ∀ outcome, ¬ step.Ends task outcome) : Unended (step :: steps) task := by
  intro other hother
  rcases List.mem_cons.mp hother with rfl | hold
  · exact hquiet
  · exact h other hold

theorem Unended.tail {steps : List Step} {step : Step} {task : Nat}
    (h : Unended (step :: steps) task) : Unended steps task :=
  fun other hother => h other (List.mem_cons_of_mem step hother)

namespace Run

variable {settings : Settings} {steps past : List Step} {step : Step} {pool : Pool} {spawned : Nat}

/-- An order is refused at once, or its render joins the others. -/
theorem ordering (h : Run settings (step :: past) pool spawned) {task : Nat} {order : Order}
    (hevent : step.event = .order task order) :
    (∃ failure, step.after.pool.ended = [(task, .failed failure)] ∧
        step.after.pool.renders = step.before.renders ∧
        Refuses step.found task order step.after failure) ∨
      (step.after.pool.ended = [] ∧ ∃ r ∈ step.after.pool.renders, r.task = task ∧ step.Admits r ∧
        step.after.pool.renders.map Render.ordered
          = step.before.renders.map Render.ordered ++ [r.ordered]) := by
  obtain ⟨_, hcourse⟩ := h.course
  rw [hevent] at hcourse
  generalize hafter : step.after = t at hcourse
  cases hcourse with
  | quiet hcaller => contradiction
  | refused hpool _ _ hway =>
    refine .inl ⟨_, ?_, ?_, hway⟩
    · rw [hpool]
      rfl
    · rw [hpool]
      rfl
  | @joins _ r free u _ _ _ _ hpool hadmits hcommand _ horder hgoes =>
    have hkeeps := Keeps.goes horder hgoes
    have joined : u.pool.renders = step.before.renders ++ [r] := by
      rw [hpool]
      rfl
    have hmem : r ∈ u.pool.renders := by
      rw [joined]
      exact List.mem_append_right _ List.mem_cons_self
    obtain ⟨q, hq, hsame⟩ := hkeeps.latter hmem
    have admits : step.Admits r := ⟨⟨order, _, hevent, hadmits⟩, hcommand⟩
    refine .inr ⟨?_, q, hq, Render.task_eq hsame, admits.elsewhere hsame, ?_⟩
    · rw [hkeeps.ended, hpool]
      rfl
    · rw [hkeeps.renders, joined, List.map_append, hsame]
      rfl

theorem stays_in {r : Render} (h : Run settings (step :: past) pool spawned)
    (hr : r ∈ step.before.renders) (hquiet : ∀ outcome, ¬ step.Ends r.task outcome) :
    ∃ q ∈ pool.renders, q.ordered = r.ordered := by
  obtain ⟨_, _, _, rfl, _⟩ := h.last
  rcases h.fate hr with ⟨outcome, hended, _⟩ | hstays
  · exact absurd (Step.ends_of_eq hended) (hquiet outcome)
  · exact hstays.latter

theorem quiet_of_mem {r q : Render} (h : Run settings (step :: past) pool spawned)
    (hr : r ∈ step.before.renders) (hq : q ∈ pool.renders) (hsame : q.ordered = r.ordered)
    (outcome : Outcome) : ¬ step.Ends r.task outcome := by
  obtain ⟨_, _, _, rfl, _⟩ := h.last
  rcases h.fate hr with ⟨_, _, hparts⟩ | hstays
  · obtain ⟨x, _, hother, hordered⟩ := hparts.former hq
    exact absurd (Render.task_eq (hordered.trans hsame)) hother
  · exact hstays.quiet outcome

theorem origin {r : Render} (h : Run settings steps pool spawned) (hr : r ∈ pool.renders) :
    ∃ recent begun past, steps = recent ++ begun :: past ∧ begun.Admits r ∧
      Unended (recent ++ [begun]) r.task := by
  induction steps generalizing pool spawned r with
  | nil =>
    cases h with
    | start hnew =>
      obtain ⟨_, rfl⟩ := Pool.new_eq hnew
      contradiction
  | cons step past ih =>
    obtain ⟨_, hrun, _, rfl, _⟩ := h.last
    have older : ∀ x ∈ step.before.renders, x.ordered = r.ordered → ∃ recent begun earlier,
        step :: past = recent ++ begun :: earlier ∧ begun.Admits r ∧
          Unended (recent ++ [begun]) r.task := by
      intro x hx hsame
      obtain ⟨recent, begun, earlier, rfl, hadmits, hunended⟩ := ih hrun hx
      rw [Render.task_eq hsame] at hunended
      have quiet := h.quiet_of_mem hx hr hsame.symm
      rw [Render.task_eq hsame] at quiet
      exact ⟨step :: recent, begun, earlier, rfl, hadmits.elsewhere hsame.symm, hunended.cons quiet⟩
    have former : (∃ x ∈ step.before.renders, x.ordered = r.ordered) ∨
        ∃ order, step.event = .order r.task order := by
      rcases h.splits with hcarries | ⟨_, _, _, _, hparts⟩
      · exact (hcarries.former r hr).imp_right (·.2)
      · obtain ⟨x, hx, _, hsame⟩ := hparts.former hr
        exact .inl ⟨x, hx, hsame⟩
    rcases former with ⟨x, hx, hsame⟩ | ⟨order, hevent⟩
    · exact older x hx hsame
    · rcases h.ordering hevent with ⟨_, _, hsame, _⟩ | ⟨hended, q, hq, htask, hadmits, _⟩
      · exact older r (hsame ▸ hr) rfl
      · obtain rfl := h.inOrder.1.tables.eq_of_task hq hr htask
        refine ⟨[], step, past, rfl, hadmits, fun other hother outcome => ?_⟩
        obtain rfl := List.mem_singleton.mp hother
        rw [Step.Ends, hended]
        exact List.not_mem_nil

end Run

end ClipRender.Rendering
