import ClipRender.Proofs.Rendering.Admitting

set_option autoImplicit false

/-!
Every job is accounted for: when its task ends, its status tells how, unless a failure comes up that
nobody plans for. Those are known one by one, and leave a job pending or running for good.
-/

namespace ClipRender.Rendering

def Render.status (r : Render) : JobStatus := if r.isWaiting then .pending else .running

/-- The statuses tell of all renders in the pool, and of nobody but tasks that brought an order. -/
structure Pool.Noted (pool : Pool) (past : List Step) : Prop where
  known : ∀ task status, pool.statuses.lookup task = some status → Ordered past task
  noted : ∀ r ∈ pool.renders, pool.statuses.lookup r.task = some r.status

/-- A render ends at the step with a failure that nobody plans for. The status of its job stays what
it was. -/
inductive Step.Stumbles (step : Step) (task : Nat) : JobStatus → Failure → Prop
  /-- There is no place for outputs. -/
  | homeless {order : Order} {world : World} {job : Job} {files : Files.Tree} {fault : Files.Fault}
    (hevent : step.event = .order task order)
    (hjob : step.found.createJob order = (world, .ok job))
    (hfault : step.world.files.ensureDirectories step.found.outputDirectory.text
      = (files, some fault)) :
    Stumbles step task .pending (.file fault)
  /-- No arguments can be made. -/
  | uncommanded {order : Order} {r : Render} {files : Files.Tree} {failure : Failure}
    (hevent : step.event = .order task order) (hadmits : Rendering.Admits step.found order r files)
    (hcommand : command step.before.settings r.job r.part.text = .error failure)
    (hunplanned : ¬ failure.Planned) : Stumbles step task .pending failure
  /-- What the engine leaves cannot be looked at, or cannot be moved. -/
  | unpublished {r : Render} {l : Lookout} {process : Engine.Process} {failure : Failure}
    (hsees : Sees step.found step.event r l process) (htask : r.task = task)
    (hflag : r.job.id ∉ step.before.flagged) (hcode : process.exit.getD 0 = 0)
    (hpublish : step.found.publish r = .error failure) (hunplanned : ¬ failure.Planned) :
    Stumbles step task .running failure
  /-- The finished clip is not found. -/
  | lost {r : Render} {l : Lookout} {process : Engine.Process} {files : Files.Tree}
    {fault : Files.Fault} (hsees : Sees step.found step.event r l process) (htask : r.task = task)
    (hflag : r.job.id ∉ step.before.flagged) (hcode : process.exit.getD 0 = 0)
    (hpublish : step.found.publish r = .ok files)
    (hstatus : (Scene.discardPart { step.world with files := files } r.part).files.status r.output
      = .error fault) : Stumbles step task .running (.file fault)

/-- Only failures that nobody plans for leave the status open. -/
theorem Outcome.open_iff {failure : Failure} :
    (Outcome.failed failure).status? = none ↔ ¬ failure.Planned := by
  constructor
  · intro hnone hplanned
    cases hplanned <;> contradiction
  · intro hunplanned
    cases failure with
    | reported error => exact absurd (.reported error) hunplanned
    | aborted => exact absurd .aborted hunplanned
    | _ => rfl

namespace Step.Stumbles

variable {step : Step} {task : Nat} {status : JobStatus} {failure : Failure}
  (h : step.Stumbles task status failure)

include h

theorem status_open : (Outcome.failed failure).status? = none := by
  cases h with
  | homeless => rfl
  | uncommanded _ _ _ hunplanned => exact Outcome.open_iff.mpr hunplanned
  | unpublished _ _ _ _ _ hunplanned => exact Outcome.open_iff.mpr hunplanned
  | lost => rfl

theorem pending {order : Order} (hevent : step.event = .order task order) : status = .pending := by
  cases h with
  | homeless => rfl
  | uncommanded => rfl
  | unpublished hsees => exact nomatch hevent.symm.trans hsees.event
  | lost hsees => exact nomatch hevent.symm.trans hsees.event

end Step.Stumbles

namespace Pool

variable {past : List Step} {surplus : Nat} {pool later : Pool} {r : Render}

theorem lookup_cons_ite {β : Type} (key first : Nat) (value : β) (rest : List (Nat × β)) :
    ((first, value) :: rest).lookup key = if key = first then some value else rest.lookup key := by
  rw [List.lookup_cons]
  by_cases hsame : key = first
  · simp [hsame]
  · rw [beq_false_of_ne hsame, if_neg hsame]

theorem lookup_setStatus (pool : Pool) (task : Nat) (status : JobStatus) (other : Nat) :
    (pool.setStatus task status).statuses.lookup other
      = if other = task then (pool.statuses.lookup task).map fun _ => status
        else pool.statuses.lookup other := by
  rw [setStatus]
  dsimp only
  induction pool.statuses with
  | nil => simp
  | cons entry rest ih =>
    obtain ⟨owner, old⟩ := entry
    by_cases howner : owner = task <;> by_cases hother : other = task <;>
      by_cases hsame : other = owner <;> simp_all [lookup_cons_ite, eq_comm]

theorem lookup_settled (pool : Pool) (task : Nat) (outcome : Outcome) (other : Nat) :
    (pool.settled task outcome).lookup other
      = if other = task then (pool.statuses.lookup task).map fun old => outcome.status?.getD old
        else pool.statuses.lookup other := by
  rw [settled]
  split
  · next status hstatus => rw [lookup_setStatus, hstatus]; rfl
  · next hnone =>
    rw [hnone]
    split
    · next hsame => simp [hsame]
    · rfl

theorem lookup_pending (pool : Pool) {task : Nat} (hfresh : pool.statuses.lookup task = none)
    (other : Nat) : (pool.statuses ++ [(task, JobStatus.pending)]).lookup other
      = if other = task then some .pending else pool.statuses.lookup other := by
  rw [List.lookup_append]
  split
  · next hsame => simp [hsame, hfresh]
  · next hother => simp [lookup_cons_ite, hother]

/-- Only queued and granted renders take part in a release, and both wait. -/
theorem former_released (htables : pool.Tables surplus) {x : Render}
    (hx : x ∈ pool.released.renders) : ∃ q ∈ pool.renders, q.ordered = x.ordered ∧
      q.status = x.status ∧ q.hasEngine = x.hasEngine := by
  rw [released, granted] at hx
  split at hx
  · exact ⟨x, hx, rfl, rfl, rfl⟩
  · next q hq =>
    obtain ⟨hmem, hqueued⟩ := find?_queued hq
    rcases htables.mem_altered hmem hx with rfl | ⟨hold, _⟩
    · refine ⟨q, hmem, rfl, ?_, ?_⟩
      · simp [Render.status, Render.isWaiting, isWaiting, hqueued]
      · simp [Render.hasEngine, hqueued]
    · exact ⟨x, hold, rfl, rfl, rfl⟩

namespace Noted

theorem cons (h : pool.Noted past) (step : Step) : pool.Noted (step :: past) :=
  ⟨fun task status hstatus => (h.known task status hstatus).cons step, h.noted⟩

theorem fresh (h : pool.Noted past) {task : Nat}
    (hfresh : ∀ step ∈ past, step.event.caller? ≠ some task) :
    pool.statuses.lookup task = none := by
  cases hlookup : pool.statuses.lookup task with
  | none => rfl
  | some status =>
    obtain ⟨step, hmem, order, hevent⟩ := h.known task status hlookup
    exact absurd (by rw [hevent]; rfl) (hfresh step hmem)

theorem elsewhere (h : pool.Noted past) (hrenders : later.renders = pool.renders)
    (hstatuses : later.statuses = pool.statuses) : later.Noted past := by
  refine ⟨?_, ?_⟩
  · rw [hstatuses]
    exact h.known
  · rw [hrenders, hstatuses]
    exact h.noted

theorem alter (h : pool.Noted past) (hr : r ∈ pool.renders) (htables : pool.Tables surplus)
    {f : Render → Render} (htask : (f r).task = r.task)
    (hrenders : later.renders = (pool.alter r.task f).renders)
    (hstatus : later.statuses.lookup r.task = some (f r).status)
    (hothers : ∀ task ≠ r.task, later.statuses.lookup task = pool.statuses.lookup task) :
    later.Noted past := by
  refine ⟨fun task status hknown => ?_, fun x hx => ?_⟩
  · by_cases hsame : task = r.task
    · rw [hsame]
      exact h.known r.task _ (h.noted r hr)
    · exact h.known task status (hothers task hsame ▸ hknown)
  · rw [hrenders] at hx
    rcases htables.mem_altered hr hx with rfl | ⟨hold, hother⟩
    · rw [htask]
      exact hstatus
    · rw [hothers _ hother]
      exact h.noted x hold

theorem setPhase (h : pool.Noted past) (hr : r ∈ pool.renders) (htables : pool.Tables surplus)
    {phase : Phase} (hsame : ({ r with phase := phase } : Render).status = r.status)
    (hrenders : later.renders = (pool.setPhase r.task phase).renders)
    (hstatuses : later.statuses = pool.statuses) : later.Noted past := by
  refine h.alter hr htables (f := fun r => { r with phase := phase }) rfl hrenders ?_ ?_
  · rw [hstatuses, hsame]
    exact h.noted r hr
  · rw [hstatuses]
    exact fun _ _ => rfl

theorem status_of_hasEngine (hengine : r.hasEngine = true) : r.status = .running := by
  rw [Render.status, Keeps.not_isWaiting_of_hasEngine hengine]
  rfl

theorem moves (h : pool.Noted past) (htables : pool.Tables surplus)
    (hmoves : Moves past pool later) : later.Noted past := by
  cases hmoves with
  | granted hr =>
    obtain ⟨hmem, hqueued⟩ := find?_queued hr
    refine h.setPhase hmem htables ?_ rfl rfl
    simp [Render.status, Render.isWaiting, isWaiting, hqueued]
  | @begun r hr hphase _ now script =>
    refine h.alter hr htables (f := fun r => { r with phase := .spawning script, started := now })
      rfl rfl ?_ ?_
    · refine (lookup_setStatus _ _ _ _).trans ?_
      rw [if_pos rfl]
      exact congrArg _ (h.noted r hr)
    · intro task hother
      refine (lookup_setStatus _ _ _ _).trans ?_
      rw [if_neg hother]
      rfl
  | watched hr hengine =>
    exact h.setPhase hr htables (by rw [status_of_hasEngine hengine]; rfl) rfl rfl
  | stopped hr hengine =>
    exact h.setPhase hr htables (by rw [status_of_hasEngine hengine]; rfl) rfl rfl
  | shielded hr hengine =>
    exact h.setPhase hr htables (by rw [status_of_hasEngine hengine]; rfl) rfl rfl
  | _ => exact h.elsewhere rfl rfl

theorem advances {s t : Scene} (h : s.pool.Noted past) (htables : s.pool.Tables surplus)
    (hadvances : Advances past s t) : t.pool.Noted past := by
  cases hadvances with
  | stirs hstirs => exact h.elsewhere hstirs.renders hstirs.statuses
  | moves hmoves => exact h.moves htables hmoves
  | spawns hr hphase _ hpool =>
    obtain ⟨_, hphase⟩ := hphase
    refine h.setPhase hr htables ?_ (by rw [hpool]) (by rw [hpool]; rfl)
    simp [Render.status, Render.isWaiting, isWaiting, hphase]

theorem goes {s t : Scene} (h : s.pool.Noted past) (order : InOrder past s.world.spawned s.pool)
    (hgoes : Goes past s t) : t.pool.Noted past := by
  induction hgoes with
  | refl => exact h
  | tail hgoes hadvances ih => exact ih.advances (order.goes hgoes).tables hadvances

theorem leaves {s t : Scene} (h : s.pool.Noted past) (htables : s.pool.Tables surplus)
    (hr : r ∈ s.pool.renders) {outcome : Outcome} (hleaves : Leaves s r outcome t) :
    t.pool.Noted past := by
  have lookup : ∀ task, t.pool.statuses.lookup task = if task = r.task then
      (s.pool.statuses.lookup r.task).map fun old => outcome.status?.getD old
      else s.pool.statuses.lookup task := by
    rw [hleaves.pool]
    exact lookup_settled s.pool r.task outcome
  refine ⟨fun task status hknown => ?_, fun x hx => ?_⟩
  · rw [lookup] at hknown
    split at hknown
    · next hsame =>
      rw [hsame]
      exact h.known r.task _ (h.noted r hr)
    · exact h.known task status hknown
  · rw [hleaves.pool] at hx
    obtain ⟨hmem, hother⟩ := List.mem_filter.mp hx
    rw [lookup, if_neg (of_decide_eq_true hother)]
    split at hmem
    · obtain ⟨q, hq, hsame, hstatus, _⟩ := former_released htables hmem
      rw [← Render.task_eq hsame, ← hstatus]
      exact h.noted q hq
    · exact h.noted x hmem

theorem closes {s t : Scene} {gives : Nat → Prop} {concludes : Render → Scene → Prop}
    (h : s.pool.Noted past) (order : InOrder past s.world.spawned s.pool)
    (hcloses : Closes past gives concludes s t) : t.pool.Noted past := by
  cases hcloses with
  | goes hgoes => exact h.goes order hgoes
  | answers hgoes _ _ hpool =>
    exact (h.goes order hgoes).elsewhere (by rw [hpool]; rfl) (by rw [hpool]; rfl)
  | ends hgoes _ _ hr _ hleaves _ hafter =>
    have went := order.goes hgoes
    exact ((h.goes order hgoes).leaves went.tables hr hleaves).goes (went.leaves hr hleaves) hafter

theorem ordered (h : pool.Noted past) {task : Nat} (hordered : Ordered past task) (status : JobStatus)
    (hfresh : pool.statuses.lookup task = none)
    (hlookup : ∀ other, later.statuses.lookup other
      = if other = task then some status else pool.statuses.lookup other)
    (hrenders : ∀ x ∈ later.renders, x ∈ pool.renders ∨ (x.task = task ∧ x.status = status)) :
    later.Noted past := by
  refine ⟨fun other known hknown => ?_, fun x hx => ?_⟩
  · rw [hlookup] at hknown
    split at hknown
    · next hsame => exact hsame ▸ hordered
    · exact h.known other known hknown
  · rw [hlookup]
    rcases hrenders x hx with hold | ⟨htask, hstatus⟩
    · have noted := h.noted x hold
      split
      · next hsame =>
        rw [hsame, hfresh] at noted
        contradiction
      · exact noted
    · rw [if_pos htask, hstatus]

theorem refuses {s t : Scene} (h : s.pool.Noted past) {task : Nat} {order : Order}
    {failure : Failure} (hordered : Ordered past task) (hfresh : s.pool.statuses.lookup task = none)
    (hrenders : t.pool.renders = s.pool.renders) (hway : Refuses s task order t failure) :
    t.pool.Noted past := by
  have old : ∀ {status : JobStatus}, ∀ x ∈ t.pool.renders,
      x ∈ s.pool.renders ∨ (x.task = task ∧ x.status = status) :=
    fun x hx => .inl (hrenders ▸ hx)
  cases hway with
  | unmade _ hstatuses => exact h.elsewhere hrenders hstatuses
  | homeless _ _ hstatuses =>
    refine h.ordered hordered .pending hfresh ?_ old
    rw [hstatuses]
    exact lookup_pending s.pool hfresh
  | dropped _ _ _ hstatuses =>
    refine h.ordered hordered ((Outcome.failed failure).status?.getD .pending) hfresh ?_ old
    intro other
    rw [hstatuses, lookup_settled]
    dsimp only
    rw [lookup_pending s.pool hfresh, if_pos rfl, lookup_pending s.pool hfresh]
    split <;> rfl

theorem joins {s t : Scene} (h : s.pool.Noted past) {free : Nat} (hordered : Ordered past r.task)
    (hfresh : s.pool.statuses.lookup r.task = none) (hwaits : r.isWaiting = true)
    (hpool : t.pool = { s.pool.joined r free with
      statuses := s.pool.statuses ++ [(r.task, .pending)] }) : t.pool.Noted past := by
  rw [hpool]
  refine h.ordered hordered .pending hfresh (lookup_pending s.pool hfresh) fun x hx => ?_
  rcases List.mem_append.mp hx with hold | hnew
  · exact .inl hold
  · obtain rfl := List.mem_singleton.mp hnew
    exact .inr ⟨rfl, by rw [Render.status, hwaits]; rfl⟩

theorem course {s t : Scene} {event : Event} (h : s.pool.Noted past)
    (order : InOrder past s.world.spawned s.pool)
    (hfresh : ∀ task order, event = .order task order →
      Ordered past task ∧ s.pool.statuses.lookup task = none)
    (hcourse : Course past s event t) : t.pool.Noted past := by
  cases hcourse with
  | quiet _ hcloses => exact h.closes order hcloses
  | @flags task jobId _ hjob hgoes =>
    have flagged : (s.onPool (·.flag jobId)).pool.Noted past :=
      h.elsewhere (by rw [Scene.onPool, flag_eq]) (by rw [Scene.onPool, flag_eq])
    exact flagged.goes (order.flag hjob) hgoes
  | @answersAtOnce task jobId hjob =>
    refine h.elsewhere ?_ ?_
    · rw [Scene.onPool, flag_eq]
      rfl
    · rw [Scene.onPool, flag_eq]
      rfl
  | notFound => exact h.elsewhere rfl rfl
  | refused hpool _ _ hway =>
    obtain ⟨hordered, hnew⟩ := hfresh _ _ rfl
    exact h.refuses hordered hnew (by rw [hpool]) hway
  | joins _ hwaits _ hpool _ _ _ horder hgoes =>
    obtain ⟨hordered, hnew⟩ := hfresh _ _ rfl
    exact (h.joins hordered hnew hwaits hpool).goes horder hgoes

end Noted

end Pool

theorem Advances.lookup_stranger {past : List Step} {s t : Scene} (h : Advances past s t)
    {task : Nat} (hgone : ∀ q ∈ s.pool.renders, q.task ≠ task) :
    t.pool.statuses.lookup task = s.pool.statuses.lookup task := by
  cases h with
  | stirs hstirs => rw [hstirs.statuses]
  | spawns _ _ _ hpool => rw [hpool]; rfl
  | moves hmoves =>
    generalize t.pool = later at hmoves
    cases hmoves with
    | @begun r hr =>
      refine (Pool.lookup_setStatus _ _ _ _).trans ?_
      rw [if_neg (Ne.symm (hgone r hr))]
      rfl
    | _ => rfl

theorem Goes.lookup_stranger {past : List Step} {s t : Scene}
    (order : InOrder past s.world.spawned s.pool) (h : Goes past s t) {task : Nat}
    (hgone : ∀ q ∈ s.pool.renders, q.task ≠ task) :
    t.pool.statuses.lookup task = s.pool.statuses.lookup task := by
  induction h with
  | refl => rfl
  | tail hgoes hadvances ih =>
    rw [hadvances.lookup_stranger, ih]
    intro q hq htask
    obtain ⟨r, hr, hsame⟩ := (Keeps.goes order hgoes).former hq
    exact hgone r hr ((Render.task_eq hsame).trans htask)

theorem Sees.handle {s : Scene} {event : Event} {r : Render} {l : Lookout}
    {process : Engine.Process} {surplus : Nat} (h : Sees s event r l process)
    (htables : s.pool.Tables surplus) :
    s.handle event = (s.dismiss l).conclude r process := by
  have consults : s.consult l.number = (s.dismiss l, some .seen) := by
    rw [Scene.consult, h.lookout]
    simp [h.announced, h.back, h.recalled]
  have same : (s.dismiss l).pool.process? process.pid = some process := h.process
  rw [h.event]
  change s.turn (.render r.task) = _
  rw [Scene.turn, htables.render?_eq h.render]
  change s.renderTurn r = _
  rw [Scene.renderTurn, h.phase]
  dsimp only
  rw [consults]
  change Scene.answered (s.dismiss l) r process.pid .seen = _
  rw [Scene.answered, same]

theorem Concluded.undismissed {s t : Scene} {r : Render} {l : Lookout} {process : Engine.Process}
    {outcome : Outcome} (h : Concluded (s.dismiss l) r process t outcome) :
    Concluded s r process t outcome := by
  cases h with
  | cancelled hflag hfiles => exact .cancelled hflag hfiles
  | exit hflag hcode hfiles => exact .exit hflag hcode hfiles
  | unpublished hflag hcode hpublish hfiles => exact .unpublished hflag hcode hpublish hfiles
  | lost hflag hcode hpublish hfiles hstatus => exact .lost hflag hcode hpublish hfiles hstatus
  | exported hflag hcode hpublish hfiles hstatus hclip =>
    exact .exported hflag hcode hpublish hfiles hstatus hclip

namespace Run

variable {settings : Settings} {steps past : List Step} {step : Step} {pool : Pool} {spawned : Nat}

theorem noted (h : Run settings steps pool spawned) : pool.Noted steps := by
  induction h with
  | start hnew =>
    obtain ⟨_, rfl⟩ := Pool.new_eq hnew
    exact ⟨fun task status hknown => by simp at hknown, fun r hr => by simp at hr⟩
  | @next past pool spawned step hrun hbefore hle hfresh ih =>
    subst hbefore
    obtain ⟨found, hcourse⟩ := next_course hrun.inOrder.1 hle hfresh
    have noted : step.found.pool.Noted (step :: past) := (ih.cons step).elsewhere rfl rfl
    refine noted.course found (fun task order hevent => ?_) hcourse
    exact ⟨⟨step, List.mem_cons_self, order, hevent⟩, 
      ih.fresh fun other hmem => hfresh task (by rw [hevent]; rfl) other hmem⟩

/-- A render fails as planned, or concludes with what its engine has left. -/
theorem ends_as (h : Run settings (step :: past) pool spawned) {r : Render}
    (hr : r ∈ step.before.renders) {outcome : Outcome} (hends : step.Ends r.task outcome) :
    Fails step.found r outcome step.after ∨ ∃ l process, Sees step.found step.event r l process ∧
      Concluded step.found r process step.after outcome := by
  obtain ⟨order, _⟩ := h.course
  obtain @⟨q, _, _, hsame, _, _, _, _, _, _, hway⟩ := h.departs hr hends
  rcases hway with hfails | hconcludes
  · refine .inl ⟨hfails.planned, ?_⟩
    rw [hfails.files, Render.part_eq hsame]
  · generalize hafter : step.after = t at hconcludes
    cases hconcludes with
    | @intro l process hsees =>
      obtain rfl := order.tables.eq_of_task hsees.render hr (Render.task_eq hsame)
      have holds : q.holdsSlot = true := by simp [Render.holdsSlot, hsees.phase]
      obtain ⟨last, hconcluded, hleaves⟩ :=
        Scene.conclude_concluded (step.found.dismiss l) process holds
      obtain ⟨_, rfl⟩ := hends.only (by rw [hafter, hleaves.pool]; rfl)
      exact .inr ⟨l, process, hsees, hconcluded.undismissed⟩

theorem settled_as (h : Run settings (step :: past) pool spawned) {r : Render}
    (hr : r ∈ step.before.renders) {outcome : Outcome} (hends : step.Ends r.task outcome) :
    ∃ status, step.after.pool.statuses.lookup r.task = some status ∧
      (outcome.status? = some status ∨ (outcome.status? = none ∧ status = .running)) := by
  obtain ⟨order, _⟩ := h.course
  obtain ⟨_, hrun, _⟩ := h.last
  obtain @⟨q, before, after, hsame, hbefore, _, hq, hleaves, hafter, _, hway⟩ := h.departs hr hends
  have noted : step.found.pool.Noted (step :: past) := (hrun.noted.cons step).elsewhere rfl rfl
  have went := order.goes hbefore
  have gone : ∀ x ∈ after.pool.renders, x.task ≠ r.task := by
    rw [hleaves.pool, ← Render.task_eq hsame]
    exact fun x hx => of_decide_eq_true (List.mem_filter.mp hx).2
  have left : step.after.pool.statuses.lookup r.task
      = some (outcome.status?.getD q.status) := by
    rw [hafter.lookup_stranger (went.leaves hq hleaves) gone, hleaves.pool]
    dsimp only
    rw [← Render.task_eq hsame, Pool.lookup_settled, if_pos rfl,
      (noted.goes order hbefore).noted q hq]
    rfl
  refine ⟨_, left, ?_⟩
  cases hsome : outcome.status? with
  | some status => exact .inl rfl
  | none =>
    rcases hway with hfails | hconcludes
    · obtain ⟨failure, hplanned, rfl⟩ := hfails.planned
      exact absurd hplanned (Outcome.open_iff.mp hsome)
    · refine .inr ⟨rfl, ?_⟩
      generalize step.after = t at hconcludes
      cases hconcludes with
      | intro hsees => exact Pool.Noted.status_of_hasEngine (by simp [Render.hasEngine, hsees.phase])

theorem refused_as (h : Run settings (step :: past) pool spawned) {task : Nat} {job : Job}
    (hmakes : step.Makes task job) {outcome : Outcome} (hends : step.Ends task outcome) :
    ∃ status, step.after.pool.statuses.lookup task = some status ∧
      (outcome.status? = some status ∨ (outcome.status? = none ∧
        ∃ failure, outcome = .failed failure ∧ step.Stumbles task status failure)) := by
  obtain ⟨order, world, hevent, hjob⟩ := hmakes
  obtain ⟨_, hrun, _, _, _, hfresh⟩ := h.last
  have fresh : step.found.pool.statuses.lookup task = none :=
    hrun.noted.fresh fun other hmem => hfresh task (by rw [hevent]; rfl) other hmem
  rcases h.ordering hevent with ⟨failure, hended, _, hway⟩ | ⟨hended, _⟩
  · obtain ⟨_, rfl⟩ := hends.only hended
    cases hway with
    | unmade hfailed =>
      have := hjob.symm.trans hfailed
      simp at this
    | homeless hmade hfault hstatuses =>
      refine ⟨.pending, ?_, .inr ⟨rfl, _, rfl, .homeless hevent hmade hfault⟩⟩
      rw [hstatuses]
      exact (Pool.lookup_pending _ fresh task).trans (if_pos rfl)
    | @dropped r files failure hadmits htask hwhy hstatuses =>
      have last : step.after.pool.statuses.lookup task
          = some ((Outcome.failed failure).status?.getD .pending) := by
        rw [hstatuses, Pool.lookup_settled, if_pos rfl]
        dsimp only
        rw [Pool.lookup_pending step.found.pool fresh, if_pos rfl]
        rfl
      refine ⟨_, last, ?_⟩
      cases hsome : (Outcome.failed failure).status? with
      | some status => exact .inl rfl
      | none =>
        have unplanned := Outcome.open_iff.mp hsome
        refine .inr ⟨rfl, failure, rfl, ?_⟩
        rcases hwhy with hcommand | ⟨hplanned, _⟩
        · exact .uncommanded hevent hadmits hcommand unplanned
        · exact absurd hplanned unplanned
  · rw [Step.Ends, hended] at hends
    exact absurd hends List.not_mem_nil

theorem left_as (h : Run settings (step :: past) pool spawned) {r : Render}
    (hr : r ∈ step.before.renders) {outcome : Outcome} (hends : step.Ends r.task outcome) :
    ∃ status, step.after.pool.statuses.lookup r.task = some status ∧
      (outcome.status? = some status ∨ (outcome.status? = none ∧
        ∃ failure, outcome = .failed failure ∧ step.Stumbles r.task status failure)) := by
  obtain ⟨status, hlookup, hsome | ⟨hnone, rfl⟩⟩ := h.settled_as hr hends
  · exact ⟨status, hlookup, .inl hsome⟩
  · refine ⟨.running, hlookup, .inr ⟨hnone, ?_⟩⟩
    rcases h.ends_as hr hends with hfails | ⟨l, process, hsees, hconcluded⟩
    · obtain ⟨failure, hplanned, rfl⟩ := hfails.planned
      exact absurd hplanned (Outcome.open_iff.mp hnone)
    · cases hconcluded with
      | cancelled => contradiction
      | exit => contradiction
      | exported => contradiction
      | @unpublished failure hflag hcode hpublish =>
        exact ⟨failure, rfl,
          .unpublished hsees rfl hflag hcode hpublish (Outcome.open_iff.mp hnone)⟩
      | lost hflag hcode hpublish hfiles hstatus =>
        rw [hfiles] at hstatus
        exact ⟨_, rfl, .lost hsees rfl hflag hcode hpublish hstatus⟩

theorem homeless_ends (h : Run settings (step :: past) pool spawned) {task : Nat} {order : Order}
    {world : World} {job : Job} {files : Files.Tree} {fault : Files.Fault}
    (hevent : step.event = .order task order)
    (hjob : step.found.createJob order = (world, .ok job))
    (hfault : step.world.files.ensureDirectories step.found.outputDirectory.text
      = (files, some fault)) : step.Ends task (.failed (.file fault)) := by
  have homeless : ∀ later, step.world.files.ensureDirectories step.found.outputDirectory.text
      ≠ (later, none) := by
    intro later hnone
    cases (Prod.mk.inj (hfault.symm.trans hnone)).2
  rcases h.ordering hevent with ⟨other, hended, _, hway⟩ | ⟨_, r, _, _, hadmits, _⟩
  · cases hway with
    | unmade hfailed => cases (Prod.mk.inj (hjob.symm.trans hfailed)).2
    | homeless _ hagain =>
      obtain rfl := Option.some.inj (Prod.mk.inj (hagain.symm.trans hfault)).2
      exact Step.ends_of_eq hended
    | dropped hadmits => exact absurd hadmits.directory (homeless _)
  · obtain ⟨want, files, _, hadmits⟩ := hadmits.admitted
    exact absurd hadmits.directory (homeless _)

theorem uncommanded_ends (h : Run settings (step :: past) pool spawned) {task : Nat}
    {order : Order} {r : Render} {files : Files.Tree} {failure : Failure}
    (hevent : step.event = .order task order) (hadmits : Rendering.Admits step.found order r files)
    (hcommand : command step.before.settings r.job r.part.text = .error failure) :
    step.Ends task (.failed failure) := by
  obtain ⟨world, hjob⟩ := hadmits.job
  rcases h.ordering hevent with ⟨other, hended, _, hway⟩ | ⟨_, q, _, rfl, hjoined, _⟩
  · cases hway with
    | unmade hfailed => cases (Prod.mk.inj (hjob.symm.trans hfailed)).2
    | homeless _ hfault => cases (Prod.mk.inj (hfault.symm.trans hadmits.directory)).2
    | dropped hagain _ hwhy =>
      obtain ⟨same, _, place⟩ := hadmits.unique hagain
      rw [same, place] at hwhy
      rcases hwhy with herror | ⟨_, hok⟩
      · obtain rfl := Except.error.inj (herror.symm.trans hcommand)
        exact Step.ends_of_eq hended
      · cases (hok.symm.trans hcommand)
  · obtain ⟨want, later, hagain, hother⟩ := hjoined.admitted
    obtain ⟨_, rfl⟩ := Event.order.inj (hevent.symm.trans hagain)
    obtain ⟨same, _, place⟩ := hadmits.unique hother
    have made := hjoined.command
    rw [same, place] at made
    cases (made.symm.trans hcommand)

theorem stumbles_at_once (h : Run settings (step :: past) pool spawned) {task : Nat} {order : Order}
    {status : JobStatus} {failure : Failure} (hevent : step.event = .order task order)
    (hstumbles : step.Stumbles task status failure) :
    step.Ends task (.failed failure) ∧ ∃ job, step.Makes task job := by
  cases hstumbles with
  | unpublished hsees => cases hevent.symm.trans hsees.event
  | lost hsees => cases hevent.symm.trans hsees.event
  | homeless hbrings hjob hfault =>
    exact ⟨h.homeless_ends hbrings hjob hfault, _, _, _, hbrings, hjob⟩
  | uncommanded hbrings hadmits hcommand =>
    obtain ⟨world, hjob⟩ := hadmits.job
    exact ⟨h.uncommanded_ends hbrings hadmits hcommand, _, _, _, hbrings, hjob⟩

theorem concludes (h : Run settings (step :: past) pool spawned) {r : Render} {l : Lookout}
    {process : Engine.Process} (hsees : Sees step.found step.event r l process) :
    ∃ outcome, step.Ends r.task outcome ∧
      Concluded step.found r process step.after outcome := by
  obtain ⟨order, _⟩ := h.course
  have holds : r.holdsSlot = true := by simp [Render.holdsSlot, hsees.phase]
  obtain ⟨outcome, hconcluded, hleaves⟩ :=
    Scene.conclude_concluded (step.found.dismiss l) process holds
  have same : (step.found.dismiss l).conclude r process = step.after :=
    (hsees.handle order.tables).symm
  rw [same] at hconcluded hleaves
  refine ⟨outcome, ?_, hconcluded.undismissed⟩
  exact Step.ends_of_eq (by rw [hleaves.pool]; rfl)

/-- Whatever a render stumbles over ends it. -/
theorem stumbles (h : Run settings (step :: past) pool spawned) {task : Nat} {status : JobStatus}
    {failure : Failure} (hstumbles : step.Stumbles task status failure) :
    step.Ends task (.failed failure) ∧ step.after.pool.statuses.lookup task = some status := by
  have hopen := hstumbles.status_open
  have at_once : ∀ {order : Order}, step.event = .order task order →
      step.Ends task (.failed failure) ∧ step.after.pool.statuses.lookup task = some status := by
    intro order hevent
    obtain ⟨hends, job, hmakes⟩ := h.stumbles_at_once hevent hstumbles
    refine ⟨hends, ?_⟩
    obtain ⟨last, hlookup, hsome | ⟨_, _, _, hagain⟩⟩ := h.refused_as hmakes hends
    · exact nomatch hopen.symm.trans hsome
    · rw [hlookup, hagain.pending hevent, hstumbles.pending hevent]
  have late : ∀ {r : Render}, r ∈ step.before.renders → step.Ends r.task (.failed failure) →
      step.after.pool.statuses.lookup r.task = some .running := by
    intro r hr hends
    obtain ⟨last, hlookup, hsome | ⟨_, rfl⟩⟩ := h.settled_as hr hends
    · exact nomatch hopen.symm.trans hsome
    · exact hlookup
  cases hstumbles with
  | homeless hevent => exact at_once hevent
  | uncommanded hevent => exact at_once hevent
  | unpublished hsees htask hflag hcode hpublish =>
    subst htask
    obtain ⟨outcome, hends, hconcluded⟩ := h.concludes hsees
    cases hconcluded with
    | cancelled hflagged => exact absurd hflagged hflag
    | exit _ hfailed => exact absurd hcode hfailed
    | lost _ _ hmoved => exact nomatch hmoved.symm.trans hpublish
    | exported _ _ hmoved => exact nomatch hmoved.symm.trans hpublish
    | unpublished _ _ hagain =>
      obtain rfl := Except.error.inj (hagain.symm.trans hpublish)
      exact ⟨hends, late hsees.render hends⟩
  | lost hsees htask hflag hcode hpublish hstatus =>
    subst htask
    obtain ⟨outcome, hends, hconcluded⟩ := h.concludes hsees
    cases hconcluded with
    | cancelled hflagged => exact absurd hflagged hflag
    | exit _ hfailed => exact absurd hcode hfailed
    | unpublished _ _ hagain => exact nomatch hagain.symm.trans hpublish
    | lost _ _ hagain hfiles hmissing =>
      obtain rfl := Except.ok.inj (hagain.symm.trans hpublish)
      rw [hfiles] at hmissing
      obtain rfl := Except.error.inj (hmissing.symm.trans hstatus)
      exact ⟨hends, late hsees.render hends⟩
    | exported _ _ hagain hfiles hfound =>
      obtain rfl := Except.ok.inj (hagain.symm.trans hpublish)
      rw [hfiles] at hfound
      exact nomatch hfound.symm.trans hstatus

/-- A moment of which the milliseconds are beyond all numbers. -/
def remote : Order :=
  { Sample.order "a" with
    moment := ⟨Binary64.ofNat (Nat.pow 10 306), Binary64.ofNat (15 * Nat.pow 10 305)⟩ }

def remoteStep : Step := ⟨Sample.pool, Sample.world (Sample.engine false), .order 1 remote⟩

theorem remoteStep_makes :
    remoteStep.Makes 1 ⟨"a", "/in/v.mp4", remote.moment, remote.spec, "clip_0_00000001.mp4"⟩ := by
  have made : (remoteStep.found.createJob remote).2 = .ok
      ⟨"a", "/in/v.mp4", remote.moment, remote.spec, "clip_0_00000001.mp4"⟩ := by
    decide +kernel
  exact ⟨remote, (remoteStep.found.createJob remote).1, rfl, by rw [← made]⟩

theorem remoteStep_ends : remoteStep.Ends 1 (.failed (.noWhole .infinity)) := by
  rw [Step.Ends]
  decide +kernel

theorem remoteStep_run : Run Sample.settings [remoteStep] remoteStep.after.pool
    remoteStep.after.world.spawned :=
  .next remoteStep (.start Sample.new_settings) rfl (Nat.le_refl 0) fun _ _ _ hnone =>
    absurd hnone List.not_mem_nil

end Run

end ClipRender.Rendering
