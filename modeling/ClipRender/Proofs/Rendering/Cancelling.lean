import ClipRender.Proofs.Rendering.Answering
import ClipRender.Proofs.Rendering.Bookkeeping
import ClipRender.Proofs.Rendering.Confining

set_option autoImplicit false

/-!
A call that cancels a job in flight is not lost, wherever the render of the job stands, and no other
job notices it.
-/

namespace ClipRender.Rendering

/-- The steps of a call that cancels: the call itself, the turns of its stopper, what comes of the
lookout of the stopper, and an abort. -/
inductive Step.Serves (step : Step) (caller : Nat) : Prop
  | call {jobId : String} (hevent : step.event = .cancel caller jobId)
  | turn {x : Stopper} (hx : x ∈ step.before.stoppers) (hclient : x.client = .call caller)
    (hevent : step.event = .turn (.stopper x.number))
  | lookout {x : Stopper} {number : Nat} (hx : x ∈ step.before.stoppers)
    (hclient : x.client = .call caller) (hstage : x.stage = .grace number)
    (hevent : step.event = .look number ∨ step.event = .announce number ∨
      step.event = .alarm number)
  | abort (hevent : step.event = .abort caller)

/-- A step leaves the tables and the renders as they are, but for the mark of one job, and the
engines of all other jobs as well. -/
structure Step.HitsOnly (step : Step) (jobId : String) : Prop where
  inFlight : step.after.pool.inFlight = step.before.inFlight
  active : step.after.pool.active = step.before.active
  renders : step.after.pool.renders = step.before.renders
  flagged : ∀ id, id ≠ jobId → (id ∈ step.after.pool.flagged ↔ id ∈ step.before.flagged)
  processes : ∀ entry ∈ step.before.active, entry.1 ≠ jobId →
    step.after.pool.process? entry.2 = step.before.process? entry.2
  signals : ∃ sent, step.after.world.signals = step.world.signals ++ sent ∧
    ∀ signal ∈ sent, ∀ id, (id, signal.pid) ∈ step.before.active → id = jobId
  files : step.after.world.files = step.world.files

/-- Why a render ends whose job is cancelled. -/
inductive CutShort (settings : Settings) (past : List Step) (task : Nat) : Outcome → Prop
  | inQueue : CutShort settings past task (.failed (.reported .cancelledInQueue))
  | byCaller : CutShort settings past task (.failed (.reported .cancelledByCaller))
  | cannotStart (fault : StartFault) :
    CutShort settings past task (.failed (.reported (.cannotStart settings.enginePath fault)))
  | timeout (htime : Overdue settings past task) :
    CutShort settings past task (.failed (.reported (.timeout settings.renderTimeout)))
  | aborted (haborted : Aborted past task) : CutShort settings past task (.failed .aborted)

/-- Without another call or abort the run can go on to the answer of a call. -/
structure Promised (settings : Settings) (steps : List Step) (pool : Pool) (caller : Nat) :
    Prop where
  stopper : ∃ x ∈ pool.stoppers, x.client = .call caller
  goesOn : ∃ more last later spawned, Run settings (last :: (more ++ steps)) later spawned ∧
    (∀ step ∈ last :: more, step.event.IsOwn) ∧
    (last.Ends caller (.cancelled true) ∨
      (last.Ends caller (.failed .aborted) ∧ Aborted steps caller))

/-- The call is answered that its job was in flight, unless it is aborted. -/
structure Heard (settings : Settings) (recent : List Step) (call : Step) (past : List Step)
    (pool : Pool) (caller : Nat) : Prop where
  answer : ∀ later step between, recent ++ [call] = later ++ step :: between →
    ∀ outcome, step.Ends caller outcome →
      outcome = .cancelled true ∨
        (outcome = .failed .aborted ∧ Aborted (step :: between ++ past) caller)
  /-- As long as there is no answer a stopper is at work, and the answer can come. -/
  pending : (∃ step ∈ recent ++ [call], ∃ outcome, step.Ends caller outcome) ∨
    Promised settings (recent ++ call :: past) pool caller

/-- A render goes on with its mark until it ends, without a clip. One that waits for a slot goes on
waiting, and no engine is started for it. -/
structure Doomed (settings : Settings) (recent : List Step) (call : Step) (past : List Step)
    (pool : Pool) (r : Render) : Prop where
  lingers : (∃ step ∈ recent, ∃ outcome, step.Ends r.task outcome) ∨
    ∃ q ∈ pool.renders, q.ordered = r.ordered ∧ r.job.id ∈ pool.flagged ∧
      (r.isWaiting = true → q.isWaiting = true ∧ ∀ entry ∈ pool.active, entry.1 ≠ r.job.id)
  ends : ∀ later step between, recent = later ++ step :: between →
    ∀ outcome, step.Ends r.task outcome →
      CutShort settings (step :: between ++ call :: past) r.task outcome ∧
      step.after.world.files = (Scene.discardPart step.world r.part).files ∧
      step.after.world.spawned = step.world.spawned ∧
      (r.isWaiting = true →
        outcome = .failed (.reported .cancelledInQueue) ∨ outcome = .failed .aborted)

namespace Pool

theorem Links.job_eq {spawned : Nat} {pool : Pool} (h : pool.Links spawned) {first second : String}
    {pid : Nat} (hfirst : (first, pid) ∈ pool.active) (hsecond : (second, pid) ∈ pool.active) :
    first = second := by
  have same := List.inj_on_of_nodup_map h.activePids hfirst hsecond rfl
  exact (Prod.mk.inj same).1

end Pool

namespace Run

variable {settings : Settings} {recent past : List Step} {step call : Step} {pool : Pool}
  {spawned caller : Nat} {jobId : String}

theorem engine_of_call (h : Run settings (step :: past) pool spawned)
    (hcancels : Cancels (step :: past) caller jobId) {x : Stopper}
    (hx : x ∈ step.before.stoppers) (hclient : x.client = .call caller) {id : String}
    (hactive : (id, x.pid) ∈ step.before.active) : id = jobId := by
  obtain ⟨order, _⟩ := h.course
  obtain ⟨other, hother, hown⟩ := order.excuses.calls x hx caller hclient
  rw [h.cancels_once hcancels hother]
  exact hown id hactive

theorem engine_unstarted (h : Run settings (step :: past) pool spawned) {id : String} :
    (id, step.world.spawned + 1) ∉ step.before.active := by
  obtain ⟨order, _⟩ := h.course
  intro hactive
  have := order.links.activeKnown _ hactive
  change step.world.spawned + 1 ≤ step.world.spawned at this
  omega

/-- The call itself stops the engine of its job, where one is running. -/
theorem confined_cancel (h : Run settings (step :: past) pool spawned) :
    ∃ s pid, (s = step.found ∨ s = step.found.onPool (·.flag jobId)) ∧
      Confined pid s (step.found.cancel caller jobId) ∧
      ∀ id, (id, pid) ∈ step.before.active → id = jobId := by
  obtain ⟨order, _⟩ := h.course
  have nobody : ∀ id, (id, step.world.spawned + 1) ∈ step.before.active → id = jobId :=
    fun _ hactive => absurd hactive h.engine_unstarted
  rw [Scene.cancel]
  split
  · exact ⟨_, _, .inl rfl, .of_pool rfl rfl, nobody⟩
  · dsimp only
    split
    · exact ⟨_, _, .inr rfl, .of_pool rfl rfl, nobody⟩
    · next pid hengine =>
      obtain ⟨hactive, _⟩ := Scene.runningEngine?_mem hengine
      refine ⟨_, pid, .inr rfl, (Confined.refl _).stop caller, fun id hid => ?_⟩
      rw [Scene.onPool, Pool.active_flag] at hactive
      exact order.links.job_eq hid hactive

/-- The task of a call is no task of a render, so that an abort of it finds no more than the
stopper of the call. -/
theorem confined_abort (h : Run settings (step :: past) pool spawned)
    (hcancels : Cancels (step :: past) caller jobId) :
    ∃ pid, Confined pid step.found (step.found.abort caller) ∧
      ∀ id, (id, pid) ∈ step.before.active → id = jobId := by
  obtain ⟨order, _⟩ := h.course
  have stranger : ∀ task, Ordered (step :: past) task → task ≠ caller :=
    fun task hordered => h.apart hordered hcancels
  rw [Scene.abort]
  split
  · next r hr =>
    obtain ⟨hmem, htask⟩ := Pool.render?_mem hr
    exact absurd htask (stranger _ (order.excuses.ordered r hmem))
  · next x _ hx =>
    have hmem := List.mem_of_find?_eq_some hx
    have hworks := List.find?_some hx
    rw [Scene.worksIn] at hworks
    split at hworks
    · next task hclient =>
      obtain rfl : task = caller := of_decide_eq_true hworks
      exact ⟨x.pid, (Confined.refl _).abortStop hclient,
        fun _ => h.engine_of_call hcancels hmem hclient⟩
    · next task reason hclient =>
      have hordered := order.excuses.clients x hmem task (by rw [hclient]; rfl)
      exact absurd (of_decide_eq_true hworks) (stranger task hordered)
    · contradiction
  · exact ⟨step.world.spawned + 1, .refl _, fun _ hactive => absurd hactive h.engine_unstarted⟩

/-- A step of a call reaches no engine but the one of its job, which may not be there. -/
theorem confined (h : Run settings (step :: past) pool spawned)
    (hcancels : Cancels (step :: past) caller jobId) (hserves : step.Serves caller) :
    ∃ s pid, (s = step.found ∨ s = step.found.onPool (·.flag jobId)) ∧
      Confined pid s step.after ∧ ∀ id, (id, pid) ∈ step.before.active → id = jobId := by
  obtain ⟨order, _⟩ := h.course
  rw [step.after_eq]
  cases hserves with
  | @call other hevent =>
    obtain rfl : other = jobId := h.cancels_once ⟨step, List.mem_cons_self, hevent⟩ hcancels
    rw [hevent]
    exact h.confined_cancel
  | @turn x hx hclient hevent =>
    refine ⟨step.found, x.pid, .inl rfl, ?_, fun _ => h.engine_of_call hcancels hx hclient⟩
    rw [hevent, Scene.handle, Scene.turn, order.links.stopper?_eq hx]
    exact (Confined.refl _).stopperTurn hclient
  | @lookout x number hx hclient hstage hevent =>
    refine ⟨step.found, x.pid, .inl rfl, ?_, fun _ => h.engine_of_call hcancels hx hclient⟩
    have own : ∀ l ∈ step.found.pool.lookouts, l.number = number → l.pid = x.pid :=
      fun l hl hnumber => ((order.links.grace x hx number hstage).2 l hl hnumber).1
    rcases hevent with hevent | hevent | hevent
    all_goals rw [hevent, Scene.handle]
    · exact .forLookout own fun l => (Confined.refl _).look
    · exact .forLookout own fun l => (Confined.refl _).announce l
    · exact .forLookout own fun l => (Confined.refl _).alarm l
  | abort hevent =>
    obtain ⟨pid, hconfined, hown⟩ := h.confined_abort hcancels
    rw [hevent]
    exact ⟨_, pid, .inl rfl, hconfined, hown⟩

theorem hits_only (h : Run settings (step :: past) pool spawned)
    (hcancels : Cancels (step :: past) caller jobId) (hserves : step.Serves caller) :
    step.HitsOnly jobId := by
  obtain ⟨s, pid, hfirst, hconfined, hown⟩ := h.confined hcancels hserves
  have found : s.pool = { step.found.pool with flagged := s.pool.flagged } ∧
      s.world = step.world ∧
      ∀ id, id ≠ jobId → (id ∈ s.pool.flagged ↔ id ∈ step.before.flagged) := by
    rcases hfirst with rfl | rfl
    · exact ⟨rfl, rfl, fun _ _ => Iff.rfl⟩
    · refine ⟨Pool.flag_eq _ _, rfl, fun id hother => ?_⟩
      exact Pool.mem_flagged_flag.trans (or_iff_right hother)
  obtain ⟨hpool, hworld, hflagged⟩ := found
  have hsame := hconfined.pool
  have hactive : step.after.pool.active = step.before.active := by
    rw [hsame, hpool]
    rfl
  exact {
    active := hactive
    inFlight := by
      rw [hsame, hpool]
      rfl
    renders := by
      rw [hsame, hpool]
      rfl
    flagged := by
      rw [hsame]
      exact hflagged
    processes := by
      intro entry hentry hother
      have hpid : entry.2 ≠ pid := by
        intro heq
        exact hother (hown entry.1 (heq ▸ hentry))
      rw [hconfined.processes _ hpid, hpool]
      rfl
    signals := by
      obtain ⟨sent, hsignals, hsent⟩ := hconfined.signals
      refine ⟨sent, by rw [hsignals, hworld], ?_⟩
      intro signal hmem id hid
      rw [hsent signal hmem] at hid
      exact hown id hid
    files := by rw [hconfined.world, hworld] }

theorem answer (h : Run settings (step :: past) pool spawned)
    (hcancels : Cancels (step :: past) caller jobId) {outcome : Outcome}
    (hends : step.Ends caller outcome) :
    outcome = .cancelled true ∨ (outcome = .failed .aborted ∧ Aborted (step :: past) caller) ∨
      (step.event = .cancel caller jobId ∧ jobId ∉ step.before.inFlight) := by
  rcases h.splits with hcarries | ⟨r, hr, _, _, hparts⟩
  · have hanswered := hcarries.answered hends
    generalize hevent : step.event = event at hanswered
    cases hanswered with
    | @refused _ order =>
      exact absurd rfl (h.apart ⟨step, List.mem_cons_self, order, hevent⟩ hcancels)
    | found => exact .inl rfl
    | @notFound _ other hjob =>
      obtain rfl := h.cancels_once hcancels ⟨step, List.mem_cons_self, hevent⟩
      exact .inr (.inr ⟨rfl, hjob⟩)
    | stopped _ houtcome => exact houtcome.imp_right .inl
  · have hsame : caller = r.task := (hends.only hparts.ended).1
    exact absurd hsame.symm (h.apart ((h.ordered_before hr).cons step) hcancels)

theorem pending (h : Run settings (recent ++ call :: past) pool spawned)
    (hcall : call.event = .cancel caller jobId) (hjob : jobId ∈ call.before.inFlight) :
    (∃ step ∈ recent ++ [call], ∃ outcome, step.Ends caller outcome) ∨
      ∃ x ∈ pool.stoppers, x.client = .call caller := by
  induction recent generalizing pool spawned with
  | nil =>
    obtain ⟨_, hcourse⟩ := h.course
    obtain ⟨_, _, _, rfl, _⟩ := h.last
    rw [hcall] at hcourse
    generalize hafter : call.after = t at hcourse
    cases hcourse with
    | quiet hevent => contradiction
    | flags _ _ hstopper => exact .inr hstopper
    | answersAtOnce =>
      refine .inl ⟨call, List.mem_singleton_self call, .cancelled true, ?_⟩
      rw [Step.Ends, hafter]
      exact List.mem_append_right _ List.mem_cons_self
    | notFound habsent => exact absurd hjob habsent
  | cons step rest ih =>
    obtain ⟨_, hrun, _, rfl, _⟩ := h.last
    rcases ih hrun with ⟨other, hother, hends⟩ | ⟨x, hx, hclient⟩
    · exact .inl ⟨other, List.mem_cons_of_mem step hother, hends⟩
    · rcases h.splits with hcarries | ⟨_, _, _, _, hparts⟩
      · rcases hcarries.calls x hx caller hclient with ⟨y, hy, hsame, _⟩ | ⟨outcome, hlast⟩
        · exact .inr ⟨y, hy, hsame⟩
        · refine .inl ⟨step, List.mem_cons_self, outcome, ?_⟩
          rw [Step.Ends, hlast]
          exact List.mem_append_right _ List.mem_cons_self
      · obtain ⟨y, hy, hsame, _⟩ := hparts.calls x hx caller hclient
        exact .inr ⟨y, hy, hsame⟩

theorem since (h : Run settings (recent ++ call :: past) pool spawned) {later between : List Step}
    (hsplit : recent ++ [call] = later ++ step :: between) :
    (∃ pool spawned, Run settings (step :: (between ++ past)) pool spawned) ∧
      call ∈ step :: (between ++ past) := by
  have steps : recent ++ call :: past = later ++ step :: (between ++ past) := by
    rw [← List.singleton_append, ← List.append_assoc, hsplit, List.append_assoc, List.cons_append]
  have hlast := congrArg List.getLast? hsplit
  rw [List.getLast?_concat, List.getLast?_append_cons] at hlast
  rw [steps] at h
  exact ⟨h.earlier later, List.mem_append_left past (List.mem_of_getLast? hlast.symm)⟩

theorem answer_since (h : Run settings (step :: past) pool spawned) (hthen : call ∈ step :: past)
    (hcall : call.event = .cancel caller jobId) (hjob : jobId ∈ call.before.inFlight)
    {outcome : Outcome} (hends : step.Ends caller outcome) :
    outcome = .cancelled true ∨ (outcome = .failed .aborted ∧ Aborted (step :: past) caller) := by
  rcases h.answer ⟨call, hthen, hcall⟩ hends with htrue | haborted | ⟨hevent, habsent⟩
  · exact .inl htrue
  · exact .inr haborted
  · obtain rfl := h.begins_once List.mem_cons_self hthen (by rw [hevent]; rfl)
      (by rw [hcall]; rfl)
    exact absurd hjob habsent

theorem promised {steps : List Step} (h : Run settings steps pool spawned) (hthen : call ∈ steps)
    (hcall : call.event = .cancel caller jobId) (hjob : jobId ∈ call.before.inFlight) {x : Stopper}
    (hx : x ∈ pool.stoppers) (hclient : x.client = .call caller) :
    Promised settings steps pool caller where
  stopper := ⟨x, hx, hclient⟩
  goesOn := by
    obtain ⟨more, last, later, spawned, hrun, hown, outcome, hends⟩ := h.can_answer hx hclient
    refine ⟨more, last, later, spawned, hrun, hown, ?_⟩
    have now : call ∈ last :: (more ++ steps) :=
      List.mem_cons_of_mem last (List.mem_append_right more hthen)
    rcases hrun.answer_since now hcall hjob hends with rfl | ⟨rfl, other, hother, habort⟩
    · exact .inl hends
    · refine .inr ⟨hends, other, ?_, habort⟩
      rw [← List.cons_append] at hother
      rcases List.mem_append.mp hother with hnew | hold
      · exact absurd habort ((hown other hnew).abort caller)
      · exact hold

theorem heard (h : Run settings (recent ++ call :: past) pool spawned)
    (hcall : call.event = .cancel caller jobId) (hjob : jobId ∈ call.before.inFlight) :
    Heard settings recent call past pool caller where
  pending := by
    refine (h.pending hcall hjob).imp_right ?_
    rintro ⟨x, hx, hclient⟩
    exact h.promised (List.mem_append_right recent List.mem_cons_self) hcall hjob hx hclient
  answer := by
    intro later step between hsplit outcome hends
    obtain ⟨⟨_, _, hrun⟩, hthen⟩ := h.since hsplit
    exact hrun.answer_since hthen hcall hjob hends

theorem ordered_since (h : Run settings (recent ++ call :: past) pool spawned) {r : Render}
    (hr : r ∈ call.before.renders) : Ordered (recent ++ call :: past) r.task := by
  obtain ⟨_, _, hrun⟩ := h.earlier recent
  obtain ⟨early, hearly, order, hevent⟩ := hrun.ordered_before hr
  have hmem : early ∈ call :: past := List.mem_cons_of_mem call hearly
  exact ⟨early, List.mem_append_right recent hmem, order, hevent⟩

/-- The render of a cancelled job has left for good, or lingers with its mark. -/
theorem lingers (h : Run settings (recent ++ call :: past) pool spawned)
    (hcall : call.event = .cancel caller jobId) {r : Render} (hr : r ∈ call.before.renders)
    (hid : r.job.id = jobId) :
    ((∃ step ∈ recent, ∃ outcome, step.Ends r.task outcome) ∧
        ∀ q ∈ pool.renders, q.task ≠ r.task) ∨
      ∃ q ∈ pool.renders, q.ordered = r.ordered ∧ r.job.id ∈ pool.flagged ∧
        (r.isWaiting = true → q.isWaiting = true) := by
  induction recent generalizing pool spawned with
  | nil =>
    obtain ⟨found, _⟩ := h.course
    have hits := h.hits_only ⟨call, List.mem_cons_self, hcall⟩ (.call hcall)
    obtain ⟨_, _, _, rfl, _⟩ := h.last
    rcases h.splits with hcarries | ⟨_, _, _, hcaller, _⟩
    · have hjob : r.job.id ∈ call.before.inFlight :=
        (found.tables.inFlight _).mpr (List.mem_map.mpr ⟨r, hr, rfl⟩)
      refine .inr ⟨r, hits.renders ▸ hr, rfl, ?_, fun hwaits => hwaits⟩
      exact (hcarries.flagged _).mpr (.inr ⟨hjob, caller, by rw [hcall, hid]⟩)
    · rw [hcall] at hcaller
      contradiction
  | cons step rest ih =>
    obtain ⟨_, hrun, _, rfl, _⟩ := h.last
    rcases ih hrun with ⟨⟨other, hother, hends⟩, hgone⟩ | ⟨q, hq, hsame, hflag, hwaiting⟩
    · have hleft := h.gone (hrun.ordered_since hr) hgone
      exact .inl ⟨⟨other, List.mem_cons_of_mem step hother, hends⟩, hleft⟩
    · have hjob : q.job.id = r.job.id := by rw [Render.job_eq hsame]
      by_cases hends : ∃ outcome, step.Ends q.task outcome
      · have hleft := (h.leaves hq).mp hends
        rw [Render.task_eq hsame] at hends hleft
        exact .inl ⟨⟨step, List.mem_cons_self, hends⟩, hleft⟩
      · rcases h.fate hq with ⟨outcome, hended, _⟩ | hstays
        · exact absurd ⟨outcome, Step.ends_of_eq hended⟩ hends
        · have hmarked := hstays.flagged (by rw [hjob]; exact hflag)
          rw [hjob] at hmarked
          by_cases hwaits : r.isWaiting = true
          · obtain ⟨x, hx, hxq, hstill⟩ :=
              hstays.waiting (hwaiting hwaits) (by rw [hjob]; exact hflag)
            exact .inr ⟨x, hx, hxq.trans hsame, hmarked, fun _ => hstill⟩
          · obtain ⟨x, hx, hxq⟩ := hstays.latter
            exact .inr ⟨x, hx, hxq.trans hsame, hmarked, fun hwaits' => absurd hwaits' hwaits⟩

theorem cut_short (h : Run settings (step :: past) pool spawned) {q : Render}
    (hq : q ∈ step.before.renders) (hflag : q.job.id ∈ step.before.flagged) {outcome : Outcome}
    (hends : step.Ends q.task outcome) :
    CutShort settings (step :: past) q.task outcome ∧
      step.after.world.files = (Scene.discardPart step.world q.part).files ∧
      step.after.world.spawned = step.world.spawned ∧
      (q.isWaiting = true →
        outcome = .failed (.reported .cancelledInQueue) ∨ outcome = .failed .aborted) := by
  have hparts := h.ending hq hends
  obtain ⟨_, hrun, _⟩ := h.last
  have hsettings := hrun.inOrder.2
  obtain ⟨x, before, hsame, hflagged, hset, hverdict, hwaiting⟩ := hparts.verdict
  have htask : x.task = q.task := Render.task_eq hsame
  have hown : before.settings = settings := hset.trans hsettings
  have idle : q.isWaiting = true → x.hasEngine ≠ true := by
    intro hwaits
    rw [Render.idle_of_isWaiting (hwaiting hwaits hflag)]
    exact Bool.false_ne_true
  refine ⟨?_, hparts.files.resolve_right (not_not_intro hflag), hparts.spawned, ?_⟩
  · cases hverdict with
    | cancelledInQueue => exact .inQueue
    | cannotStart =>
      rw [hown]
      exact .cannotStart _
    | cancelledByCaller => exact .byCaller
    | concluded _ habsent =>
      rw [hflagged, Render.job_eq hsame] at habsent
      exact absurd hflag habsent
    | timeout _ htime =>
      rw [hown, htask] at htime
      rw [hown]
      exact .timeout htime
    | aborted haborted => exact .aborted (htask ▸ haborted)
  · intro hwaits
    cases hverdict with
    | cancelledInQueue => exact .inl rfl
    | cannotStart hphase =>
      have hstill := hwaiting hwaits hflag
      simp [Render.isWaiting, Pool.isWaiting, hphase] at hstill
    | cancelledByCaller hstarted => exact absurd hstarted (idle hwaits)
    | concluded hstarted => exact absurd hstarted (idle hwaits)
    | timeout hstarted => exact absurd hstarted (idle hwaits)
    | aborted => exact .inr rfl

theorem doomed (h : Run settings (recent ++ call :: past) pool spawned)
    (hcall : call.event = .cancel caller jobId) {r : Render} (hr : r ∈ call.before.renders)
    (hid : r.job.id = jobId) : Doomed settings recent call past pool r where
  lingers := by
    rcases h.lingers hcall hr hid with ⟨hended, _⟩ | ⟨q, hq, hsame, hflag, hwaiting⟩
    · exact .inl hended
    · refine .inr ⟨q, hq, hsame, hflag, fun hwaits => ⟨hwaiting hwaits, ?_⟩⟩
      rw [← Render.job_eq hsame]
      exact h.inOrder.1.tables.no_engine hq (Render.idle_of_isWaiting (hwaiting hwaits))
  ends := by
    intro later step between hsplit outcome hends
    have steps : recent ++ call :: past = later ++ step :: (between ++ call :: past) := by
      rw [hsplit, List.append_assoc, List.cons_append]
    rw [steps] at h
    obtain ⟨_, _, hrun⟩ := h.earlier later
    obtain ⟨_, hbefore, _⟩ := hrun.last
    rcases hbefore.lingers hcall hr hid with ⟨_, hgone⟩ | ⟨q, hq, hsame, hflag, hwaiting⟩
    · exact absurd hends (hrun.ended_before (hbefore.ordered_since hr) hgone outcome)
    · have htask : q.task = r.task := Render.task_eq hsame
      have hmarked : q.job.id ∈ step.before.flagged := by rwa [Render.job_eq hsame]
      have hshort := hrun.cut_short hq hmarked (htask ▸ hends)
      rw [htask, Render.part_eq hsame] at hshort
      obtain ⟨hwhy, hfiles, hspawned, hidle⟩ := hshort
      exact ⟨hwhy, hfiles, hspawned, fun hwaits => hidle (hwaiting hwaits)⟩

def waiting : Play :=
  Sample.play false [.order 1 (Sample.order "a"), .order 2 (Sample.order "b"), .look 1]

def cancelWaiting : Step := ⟨waiting.pool, waiting.world, .cancel 3 "b"⟩

/-- The other job is cancelled as well, and the one that waits has its turn. -/
def afterCancel : List Event :=
  [.cancel 4 "a", .look 1, .announce 1, .turn (.render 1), .turn (.render 2)]

def cancelledWaiting : Play :=
  Play.ofEvents cancelWaiting.after.pool cancelWaiting.after.world afterCancel

end Run

end ClipRender.Rendering
