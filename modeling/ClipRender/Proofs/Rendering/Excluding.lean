import ClipRender.Proofs.Rendering.Admitting

set_option autoImplicit false

/-!
No two renders of one id are under way at a time. A call that comes for an id in flight is turned
away, and all that follows is as it would be without the call.
-/

namespace ClipRender.Rendering

/-- The same events, each in the same world, from another pool on. -/
def replay (pool : Pool) : List Step → List Step × Pool
  | [] => ([], pool)
  | step :: earlier =>
    let (steps, pool) := replay pool earlier
    let again : Step := { step with before := pool }
    (again :: steps, again.after.pool)

/-- A call fails at once because of its data, and nothing else changes, but that it may have drawn
an id. -/
structure Step.TurnsAway (step : Step) (task : Nat) (id : String) : Prop where
  kind : (ExportError.jobInFlight id).kind = .invalidEditSpec
  pool : step.after.pool = { step.before with
    ended := [(task, .failed (.reported (.jobInFlight id)))] }
  world : ∃ drawn, step.after.world = { step.world with tokensDrawn := drawn }
  postings : step.after.postings = []

/-- Without the step there is a run as well, and each later step leaves the same behind. -/
structure Spared (settings : Settings) (recent : List Step) (step : Step) (past : List Step)
    (pool : Pool) (spawned : Nat) : Prop where
  run : ∃ begun ≤ spawned, Run settings ((replay step.before recent).1 ++ past)
    (replay step.before recent).2 begun
  same : (replay step.before recent).1.map Step.after = recent.map Step.after
  /-- News of the end are told once. -/
  pool : { (replay step.before recent).2 with ended := [] } = { pool with ended := [] }

namespace Run

variable {settings : Settings} {steps recent past : List Step} {step : Step} {pool : Pool}
  {spawned task : Nat} {job : Job}

/-- A render is in the pool for just as long as its task is under way. -/
theorem underway_iff (h : Run settings steps pool spawned) :
    Underway steps task job ↔ ∃ r ∈ pool.renders, r.task = task ∧ r.job = job := by
  constructor
  · rintro ⟨recent, begun, past, rfl, hmakes, hunended⟩
    induction recent generalizing pool spawned with
    | nil =>
      obtain ⟨_, _, _, rfl, _⟩ := h.last
      have made := hmakes
      obtain ⟨order, _, hevent, _⟩ := made
      rcases h.ordering hevent with ⟨failure, hended, _⟩ | ⟨_, r, hr, rfl, hadmits, _⟩
      · exact absurd (Step.ends_of_eq hended)
          (hunended begun (List.mem_singleton_self _) (.failed failure))
      · exact ⟨r, hr, rfl, hadmits.makes.unique hmakes⟩
    | cons step rest ih =>
      obtain ⟨_, hrun, _, rfl, _⟩ := h.last
      obtain ⟨r, hr, rfl, rfl⟩ := ih hrun hunended.tail
      obtain ⟨q, hq, hsame⟩ := h.stays_in hr (hunended step List.mem_cons_self)
      exact ⟨q, hq, Render.task_eq hsame, Render.job_eq hsame⟩
  · rintro ⟨r, hr, rfl, rfl⟩
    obtain ⟨recent, begun, past, rfl, hadmits, hunended⟩ := h.origin hr
    exact ⟨recent, begun, past, rfl, hadmits.makes, hunended⟩

theorem inFlight_iff (h : Run settings steps pool spawned) (id : String) :
    id ∈ pool.inFlight ↔ ∃ task job, Underway steps task job ∧ job.id = id := by
  rw [h.inOrder.1.tables.inFlight, List.mem_map]
  constructor
  · rintro ⟨r, hr, rfl⟩
    exact ⟨r.task, r.job, h.underway_iff.mpr ⟨r, hr, rfl, rfl⟩, rfl⟩
  · rintro ⟨task, job, hunderway, rfl⟩
    obtain ⟨r, hr, _, rfl⟩ := h.underway_iff.mp hunderway
    exact ⟨r, hr, rfl⟩

theorem underway_unique (h : Run settings steps pool spawned) {first second : Nat}
    {one other : Job} (hfirst : Underway steps first one) (hsecond : Underway steps second other)
    (hid : one.id = other.id) : first = second := by
  obtain ⟨r, hr, rfl, rfl⟩ := h.underway_iff.mp hfirst
  obtain ⟨q, hq, rfl, rfl⟩ := h.underway_iff.mp hsecond
  rw [h.inOrder.1.tables.eq_of_id hr hq hid]

end Run

theorem Scene.createJob_inFlight {s : Scene} {order : Order} {path : Files.Path}
    (hpath : Source.resolve s.world.files (.ofText s.pool.settings.inputDirectory)
      order.reference = .ok path)
    (hflight : (chooseId s.world order.jobId).1 ∈ s.pool.inFlight) :
    s.createJob order = ((chooseId s.world order.jobId).2,
      .error (.reported (.jobInFlight (chooseId s.world order.jobId).1))) := by
  rcases hchosen : chooseId s.world order.jobId with ⟨id, world⟩
  rw [hchosen] at hflight
  have found : s.pool.inFlight.contains id = true := by simpa using hflight
  rw [createJob, hpath]
  dsimp only
  rw [makeJob, hchosen]
  exact if_pos found

theorem Step.turnsAway {step : Step} {task : Nat} {order : Order} {path : Files.Path}
    (hevent : step.event = .order task order)
    (hpath : Source.resolve step.world.files (.ofText step.before.settings.inputDirectory)
      order.reference = .ok path)
    (hflight : (Scene.chooseId step.world order.jobId).1 ∈ step.before.inFlight) :
    step.TurnsAway task (Scene.chooseId step.world order.jobId).1 := by
  have refused := Scene.createJob_inFlight (s := step.found) hpath hflight
  have after : step.after = ⟨{ step.before with
      ended := [(task, .failed (.reported (.jobInFlight (Scene.chooseId step.world order.jobId).1)))] },
      (Scene.chooseId step.world order.jobId).2, []⟩ := by
    rw [step.after_eq, hevent, Scene.handle, Scene.accept, refused]
    rfl
  refine ⟨rfl, ?_, ?_, ?_⟩
  · rw [after]
  · rw [after]
    exact Scene.chooseId_world step.world order.jobId
  · rw [after]

/-- No step asks for the news of the one before it. -/
theorem Step.after_congr {step : Step} {pool : Pool}
    (h : { pool with ended := [] } = { step.before with ended := [] }) :
    { step with before := pool }.after = step.after := by
  rw [after, after]
  dsimp only
  rw [h]

theorem replay_events (pool : Pool) (steps : List Step) :
    (replay pool steps).1.map (·.event) = steps.map (·.event) := by
  induction steps with
  | nil => rfl
  | cons step earlier ih => exact congrArg (step.event :: ·) ih

namespace Run

variable {settings : Settings} {steps recent past : List Step} {step : Step} {pool : Pool}
  {spawned : Nat}

/-- A step that leaves everything as it was, but for the news, might as well not have come. -/
theorem spared (h : Run settings (recent ++ step :: past) pool spawned)
    (hpool : { step.before with ended := [] } = { step.after.pool with ended := [] })
    (hspawned : step.after.world.spawned = step.world.spawned) :
    Spared settings recent step past pool spawned := by
  induction recent generalizing pool spawned with
  | nil =>
    obtain ⟨begun, hrun, hle, rfl, rfl, _⟩ := h.last
    exact ⟨⟨begun, by rw [hspawned]; exact hle, hrun⟩, rfl, hpool⟩
  | cons later rest ih =>
    obtain ⟨_, hrun, hle, rfl, rfl, hfresh⟩ := h.last
    obtain ⟨⟨begun, hbegun, hagain⟩, hafters, hlast⟩ := ih hrun
    have same := Step.after_congr hlast
    have fresh : ∀ task ∈ later.event.caller?, ∀ other ∈ (replay step.before rest).1 ++ past,
        other.event.caller? ≠ some task := by
      intro task htask other hother
      rcases List.mem_append.mp hother with hnew | hold
      · have hmem : other.event ∈ rest.map (·.event) := by
          rw [← replay_events step.before rest]
          exact List.mem_map.mpr ⟨other, hnew, rfl⟩
        obtain ⟨twin, htwin, hevent⟩ := List.mem_map.mp hmem
        rw [← hevent]
        exact hfresh task htask twin (List.mem_append_left _ htwin)
      · exact hfresh task htask other (List.mem_append_right _ (List.mem_cons_of_mem step hold))
    refine ⟨⟨_, ?_, .next _ hagain rfl (Nat.le_trans hbegun hle) fresh⟩, ?_, ?_⟩
    · exact Nat.le_of_eq (congrArg (·.world.spawned) same)
    · exact congrArg₂ List.cons same hafters
    · exact congrArg (fun t : Scene => { t.pool with ended := [] }) same

/-- Jobs in flight are those under way, each id stands for one of them, and a call that comes for
such an id is turned away and leaves no trace. -/
theorem exclusive (h : Run settings steps pool spawned) :
    (∀ id, id ∈ pool.inFlight ↔ ∃ task job, Underway steps task job ∧ job.id = id) ∧
    (∀ first second one other, Underway steps first one → Underway steps second other →
      one.id = other.id → first = second) ∧
    ∀ recent step past, steps = recent ++ step :: past →
      ∀ task order path, step.event = .order task order →
        Source.resolve step.world.files (.ofText settings.inputDirectory) order.reference
          = .ok path →
        (Scene.chooseId step.world order.jobId).1 ∈ step.before.inFlight →
          step.TurnsAway task (Scene.chooseId step.world order.jobId).1 ∧
            Spared settings recent step past pool spawned := by
  refine ⟨h.inFlight_iff, fun _ _ _ _ => h.underway_unique, ?_⟩
  rintro recent step past rfl task order path hevent hpath hflight
  obtain ⟨_, _, hrun⟩ := h.earlier recent
  obtain ⟨_, hbefore, _⟩ := hrun.last
  rw [← hbefore.inOrder.2] at hpath
  have away := Step.turnsAway hevent hpath hflight
  refine ⟨away, h.spared ?_ ?_⟩
  · rw [away.pool]
  · obtain ⟨drawn, hdrawn⟩ := away.world
    rw [hdrawn]

/-- One job has the slot, and another waits. -/
def busy : List Event := [.order 1 (Sample.order "a"), .order 2 (Sample.order "b"), .look 1]

def duplicate : Step :=
  ⟨(Sample.play false busy).pool, (Sample.play false busy).world, .order 3 (Sample.order "b")⟩

def afterDuplicate : List Event :=
  [.cancel 4 "a", .look 1, .announce 1, .turn (.render 1), .turn (.render 2)]

theorem exclusive_duplicate :
    duplicate.TurnsAway 3 "b" ∧
      Spared Sample.settings
        ((Sample.play false (busy ++ duplicate.event :: afterDuplicate)).steps.take 5) duplicate
        (Sample.play false busy).steps
        (Sample.play false (busy ++ duplicate.event :: afterDuplicate)).pool
        (Sample.play false (busy ++ duplicate.event :: afterDuplicate)).world.spawned ∧
      (Sample.play false (busy ++ duplicate.event :: afterDuplicate)).pool.active = [("b", 2)] := by
  have h := Sample.run_play false (busy ++ duplicate.event :: afterDuplicate) (by decide)
  obtain ⟨_, _, spares⟩ := exclusive h
  obtain ⟨away, spared⟩ := spares
    ((Sample.play false (busy ++ duplicate.event :: afterDuplicate)).steps.take 5) duplicate
    (Sample.play false busy).steps rfl 3 (Sample.order "b") (.absolute ["in", "v.mp4"]) rfl
    (by decide +kernel) (by decide +kernel)
  exact ⟨away, spared, by decide +kernel⟩

end Run

end ClipRender.Rendering
