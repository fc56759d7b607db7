import ClipRender.Proofs.Rendering.Goes

set_option autoImplicit false

/-!
The courses that an event can take. A pool goes on, and in the end it may answer a call that cancels
or let go of one render. Who brings an order joins the line or is refused.
-/

namespace ClipRender

inductive Failure.Planned : Failure → Prop
  | reported (error : ExportError) : Planned (.reported error)
  | aborted : Planned .aborted

namespace Rendering

/-- The status that an outcome gives to a job. A failure that nobody plans for gives none. -/
def Outcome.status? : Outcome → Option JobStatus
  | .exported _ => some .succeeded
  | .failed (.reported error) => some (.failed error.kind error.detail)
  | .failed .aborted => some (.failed .renderCancelled "Render task cancelled")
  | _ => none

def Pool.settled (pool : Pool) (task : Nat) (outcome : Outcome) : List (Nat × JobStatus) :=
  match outcome.status? with
  | some status => (pool.setStatus task status).statuses
  | none => pool.statuses

/-- Why a render ends as it does. -/
inductive Verdict (past : List Step) (pool : Pool) (r : Render) : Outcome → Prop
  | cancelledInQueue (hphase : r.phase = .granted) (hflag : r.job.id ∈ pool.flagged) :
    Verdict past pool r (.failed (.reported .cancelledInQueue))
  | cannotStart {script : Engine.Script} {fault : StartFault} (hphase : r.phase = .spawning script)
    (hfault : script.startFault = some fault) :
    Verdict past pool r (.failed (.reported (.cannotStart pool.settings.enginePath fault)))
  | cancelledByCaller (hengine : r.hasEngine = true) (hflag : r.job.id ∈ pool.flagged) :
    Verdict past pool r (.failed (.reported .cancelledByCaller))
  /-- The engine ended by itself, whatever has come of its output. -/
  | concluded {outcome : Outcome} (hengine : r.hasEngine = true)
    (hflag : r.job.id ∉ pool.flagged)
    (hwhy : ∀ error, outcome = .failed (.reported error) →
      error = .noOutput ∨ ∃ code report, error = .engineExit code report) :
    Verdict past pool r outcome
  | timeout (hengine : r.hasEngine = true) (htime : Overdue pool.settings past r.task) :
    Verdict past pool r (.failed (.reported (.timeout pool.settings.renderTimeout)))
  | aborted (haborted : Aborted past r.task) : Verdict past pool r (.failed .aborted)

/-- A render gives its slot back, leaves the tables and ends. -/
structure Leaves (s : Scene) (r : Render) (outcome : Outcome) (t : Scene) : Prop where
  pool : t.pool = { (if r.holdsSlot then s.pool.released else s.pool).withdrawn r with
    statuses := s.pool.settled r.task outcome
    ended := s.pool.ended ++ [(r.task, outcome)] }
  spawned : t.world.spawned = s.world.spawned
  files : t.world.files = (Scene.discardPart s.world r.part).files ∨ r.job.id ∉ s.pool.flagged

/-- The abort by which a render leaves an engine that may still run. A second abort ends one that
waits behind a shield. One whose time is up stops its engine without a shield, and is ended by an
abort that comes after the kill, or that has recalled the lookout of its grace. -/
inductive GivesUp (pool : Pool) (task : Nat) : Event → Prop
  | shielded {r : Render} (hr : r ∈ pool.renders) (htask : r.task = task)
    (hphase : r.phase = .shielded) : GivesUp pool task (.abort task)
  | killed {r : Render} {s : Stopper} (hr : r ∈ pool.renders) (htask : r.task = task)
    (hphase : r.phase = .stopping) (hs : pool.stoppers.find? (Scene.worksIn task) = some s)
    (hclient : s.client = .render task .timeout) (hstage : s.stage = .killed) :
    GivesUp pool task (.abort task)
  | graced {s : Stopper} {number : Nat} {l : Lookout} (hs : s ∈ pool.stoppers)
    (hclient : s.client = .render task .timeout) (hstage : s.stage = .grace number)
    (hlookout : pool.lookout? number = some l) (hannounced : l.announced = true)
    (hback : l.stage = .back) (hrecalled : l.recalled = some .aborted) :
    GivesUp pool task (.turn (.stopper s.number))

theorem GivesUp.elsewhere {p q : Pool} {task : Nat} {event : Event} (h : GivesUp p task event)
    (hrenders : q.renders = p.renders) (hstoppers : q.stoppers = p.stoppers)
    (hlookouts : q.lookouts = p.lookouts) : GivesUp q task event := by
  cases h with
  | shielded hr htask hphase => exact .shielded (hrenders ▸ hr) htask hphase
  | killed hr htask hphase hs hclient hstage =>
    exact .killed (hrenders ▸ hr) htask hphase (hstoppers ▸ hs) hclient hstage
  | graced hs hclient hstage hlookout hannounced hback hrecalled =>
    refine .graced (hstoppers ▸ hs) hclient hstage ?_ hannounced hback hrecalled
    rw [Pool.lookout?, hlookouts]
    exact hlookout

/-- A render fails as planned, and its unfinished output goes. -/
structure Fails (s : Scene) (r : Render) (outcome : Outcome) (t : Scene) : Prop where
  planned : ∃ failure : Failure, failure.Planned ∧ outcome = .failed failure
  files : t.world.files = (Scene.discardPart s.world r.part).files

/-- The turn of a render whose lookout has seen its engine at the end before it was recalled. -/
structure Sees (s : Scene) (event : Event) (r : Render) (l : Lookout) (process : Engine.Process) :
    Prop where
  event : event = .turn (.render r.task)
  render : r ∈ s.pool.renders
  phase : r.phase = .watching process.pid l.number
  lookout : s.pool.lookout? l.number = some l
  announced : l.announced = true
  back : l.stage = .back
  recalled : l.recalled = none
  process : s.pool.process? process.pid = some process

/-- A render ends with what its engine has left behind. -/
inductive Concludes (s : Scene) (event : Event) (r : Render) : Scene → Prop
  | intro {l : Lookout} {process : Engine.Process} (h : Sees s event r l process) :
    Concludes s event r ((s.dismiss l).conclude r process)

/-- How an event goes on once it has begun. The tasks that `gives` tells of may leave an engine
that runs. A render fails as planned, or `concludes` tells how it ends. -/
inductive Closes (past : List Step) (gives : Nat → Prop) (concludes : Render → Scene → Prop)
    (s : Scene) : Scene → Prop
  | goes {t : Scene} (h : Goes past s t) : Closes past gives concludes s t
  | answers {t u : Scene} {x : Stopper} {task : Nat} {outcome : Outcome} (h : Goes past s t)
    (hx : x ∈ t.pool.stoppers) (hclient : x.client = .call task)
    (hpool : u.pool = (t.pool.dropStopper x.number).finish task outcome) (hworld : u.world = t.world)
    (houtcome : outcome = .cancelled true ∨ (outcome = .failed .aborted ∧ Aborted past task)) :
    Closes past gives concludes s u
  | ends {t u v : Scene} {r : Render} {outcome : Outcome} (h : Goes past s t)
    (hfiles : t.world.files = s.world.files) (hspawned : t.world.spawned = s.world.spawned)
    (hr : r ∈ t.pool.renders) (hverdict : Verdict past t.pool r outcome)
    (hleaves : Leaves t r outcome u)
    (hstopped : (∀ pid, (r.job.id, pid) ∈ t.pool.active → t.pool.isRunning pid = false) ∨ gives r.task)
    (after : Goes past u v) (hafter : v.world = u.world)
    (hway : Fails s r outcome v ∨ concludes r v) : Closes past gives concludes s v

def Pool.joined (pool : Pool) (r : Render) (free : Nat) : Pool :=
  { pool with
    renders := pool.renders ++ [r]
    inFlight := r.job.id :: pool.inFlight
    free := free }

def Scene.outputDirectory (s : Scene) : Files.Path :=
  Files.Path.ofText s.pool.settings.outputDirectory

/-- There is a job for an order, and its output has a directory. -/
structure Admits (s : Scene) (order : Order) (r : Render) (files : Files.Tree) : Prop where
  job : ∃ world, s.createJob order = (world, .ok r.job)
  directory : s.world.files.ensureDirectories s.outputDirectory.text = (files, none)
  output : r.output = s.outputDirectory.child r.job.outputName
  part : r.part = r.output.partial?.getD r.output

/-- How an order fails that gets no place in the line. -/
inductive Refuses (s : Scene) (task : Nat) (order : Order) (t : Scene) : Failure → Prop
  | unmade {world : World} {failure : Failure} (hjob : s.createJob order = (world, .error failure))
    (hstatuses : t.pool.statuses = s.pool.statuses) (hfiles : t.world.files = s.world.files) :
    Refuses s task order t failure
  | homeless {world : World} {job : Job} {fault : Files.Fault}
    (hjob : s.createJob order = (world, .ok job))
    (hfault : s.world.files.ensureDirectories s.outputDirectory.text = (t.world.files, some fault))
    (hstatuses : t.pool.statuses = s.pool.statuses ++ [(task, .pending)]) :
    Refuses s task order t (.file fault)
  | dropped {r : Render} {files : Files.Tree} {failure : Failure} (hadmits : Admits s order r files)
    (htask : r.task = task)
    (hwhy : command s.pool.settings r.job r.part.text = .error failure ∨
      (failure.Planned ∧ command s.pool.settings r.job r.part.text = .ok r.command))
    (hstatuses : t.pool.statuses = ({ s.pool with
      statuses := s.pool.statuses ++ [(task, .pending)] } : Pool).settled task (.failed failure))
    (hfiles : t.world.files = (Scene.discardPart { s.world with files := files } r.part).files) :
    Refuses s task order t failure

inductive Course (past : List Step) (s : Scene) : Event → Scene → Prop
  | quiet {event : Event} {t : Scene} (hevent : event.caller? = none)
    (h : Closes past (GivesUp s.pool · event) (Concludes s event) s t) : Course past s event t
  /-- A call cancels a job and waits until its engine is stopped. -/
  | flags {task : Nat} {jobId : String} {t : Scene} (hjob : jobId ∈ s.pool.inFlight)
    (h : Goes past (s.onPool (·.flag jobId)) t)
    (hcall : ∃ x ∈ t.pool.stoppers, x.client = .call task) : Course past s (.cancel task jobId) t
  | answersAtOnce {task : Nat} {jobId : String} (hjob : jobId ∈ s.pool.inFlight) :
    Course past s (.cancel task jobId)
      (s.onPool fun p => (p.flag jobId).finish task (.cancelled true))
  | notFound {task : Nat} {jobId : String} (hjob : jobId ∉ s.pool.inFlight) :
    Course past s (.cancel task jobId) (s.onPool (·.finish task (.cancelled false)))
  | refused {task : Nat} {order : Order} {t : Scene} {failure : Failure}
    (hpool : t.pool = { s.pool with
      statuses := t.pool.statuses
      ended := s.pool.ended ++ [(task, .failed failure)] })
    (hspawned : t.world.spawned = s.world.spawned)
    (hwhy : ∀ id, failure = .reported (.jobInFlight id) → id ∈ s.pool.inFlight)
    (hway : Refuses s task order t failure) : Course past s (.order task order) t
  | joins {order : Order} {r : Render} {free : Nat} {t u : Scene}
    (hid : r.job.id ∉ s.pool.inFlight) (hwaits : r.isWaiting = true)
    (hfree : free + (if r.holdsSlot then 1 else 0) = s.pool.free)
    (hpool : t.pool = { s.pool.joined r free with
      statuses := s.pool.statuses ++ [(r.task, .pending)] })
    (hadmits : Admits s order r t.world.files)
    (hcommand : command s.pool.settings r.job r.part.text = .ok r.command)
    (hspawned : t.world.spawned = s.world.spawned)
    (horder : InOrder past t.world.spawned t.pool) (h : Goes past t u) :
    Course past s (.order r.task order) u

namespace Pool

variable {past : List Step} {spawned surplus : Nat} {pool : Pool}

theorem Links.withdrawn (h : pool.Links spawned) (htables : pool.Tables surplus) {r : Render}
    (hr : r ∈ pool.renders) : (pool.withdrawn r).Links spawned := by
  have others : ∀ {x : Render}, x ∈ (pool.withdrawn r).renders →
      x ∈ pool.renders ∧ x.job.id ≠ r.job.id := by
    intro x hx
    obtain ⟨hmem, hne⟩ := List.mem_filter.mp hx
    refine ⟨hmem, fun hid => of_decide_eq_true hne ?_⟩
    rw [htables.eq_of_id hmem hr hid]
  have still : ∀ {x : Render} {pid : Nat}, x ∈ (pool.withdrawn r).renders →
      (x.job.id, pid) ∈ pool.active → (x.job.id, pid) ∈ (pool.withdrawn r).active :=
    fun hx hactive => List.mem_filter.mpr ⟨hactive, decide_eq_true (others hx).2⟩
  have known : ∀ {entry : String × Nat}, entry ∈ (pool.withdrawn r).active → entry ∈ pool.active :=
    fun hentry => (List.mem_filter.mp hentry).1
  refine { h with
    listening := h.listening.elsewhere rfl rfl rfl, settled := h.settled, activePids := ?activePids,
    activeKnown := ?activeKnown, watching := ?watching, serving := ?serving, guarded := ?guarded }
  case activePids => exact h.activePids.sublist (List.filter_sublist.map _)
  case activeKnown => exact fun entry hentry => h.activeKnown entry (known hentry)
  case watching =>
    intro x hx pid number hphase
    obtain ⟨hactive, hrest⟩ := h.watching x (others hx).1 pid number hphase
    exact ⟨still hx hactive, hrest⟩
  case serving =>
    intro s hs x hx hclient
    obtain ⟨hengine, hactive⟩ := h.serving s hs x (others hx).1 hclient
    exact ⟨hengine, still hx hactive⟩
  case guarded =>
    exact fun x hx hphase pid hactive =>
      h.guarded x (others hx).1 hphase pid (known hactive)

theorem Excuses.withdrawn (h : pool.Excuses past) (r : Render) :
    (pool.withdrawn r).Excuses past := by
  refine { h with shielded := ?shielded, ordered := ?ordered, calls := ?calls }
  case shielded => exact fun x hx => h.shielded x (List.mem_filter.mp hx).1
  case ordered => exact fun x hx => h.ordered x (List.mem_filter.mp hx).1
  case calls =>
    intro s hs task hclient
    obtain ⟨jobId, hcancels, hown⟩ := h.calls s hs task hclient
    exact ⟨jobId, hcancels, fun id hid => hown id (List.mem_filter.mp hid).1⟩

theorem Links.elsewhere {p q : Pool} (h : p.Links spawned)
    (hpool : q = { p with
      free := q.free, inFlight := q.inFlight, flagged := q.flagged, statuses := q.statuses,
      ended := q.ended }) : q.Links spawned := by
  rw [hpool]
  exact { h with
    listening := h.listening.elsewhere rfl rfl rfl, settled := h.settled, guarded := h.guarded }

theorem Excuses.elsewhere {p q : Pool} (h : p.Excuses past)
    (hpool : q = { p with
      free := q.free, inFlight := q.inFlight, flagged := q.flagged, statuses := q.statuses,
      ended := q.ended }) : q.Excuses past := by
  rw [hpool]
  exact { h with ordered := h.ordered }

theorem Links.granted (h : pool.Links spawned) (htables : pool.Tables surplus)
    (hfree : 0 < pool.free) : pool.granted.Links spawned := by
  rw [Pool.granted]
  split
  · exact h
  · next r hr =>
    have moved : Moves [] pool { pool.setPhase r.task .granted with free := pool.free - 1 } :=
      .granted hr hfree
    exact h.moves htables moved

theorem Excuses.granted (h : pool.Excuses past) (hlinks : pool.Links spawned)
    (htables : pool.Tables surplus) (hfree : 0 < pool.free) : pool.granted.Excuses past := by
  rw [Pool.granted]
  split
  · exact h
  · next r hr => exact h.moves htables hlinks (.granted hr hfree)

end Pool

namespace InOrder

open Pool

variable {past : List Step} {spawned : Nat} {pool later : Pool} {s t : Scene}

theorem elsewhere (h : InOrder past spawned pool)
    (hpool : later = { pool with statuses := later.statuses, ended := later.ended }) :
    InOrder past spawned later := by
  refine ⟨?_, h.links.elsewhere ?_, h.excuses.elsewhere ?_⟩
  · rw [hpool]
    exact h.tables.elsewhere rfl rfl rfl rfl rfl rfl
  · rw [hpool]
  · rw [hpool]

theorem leaves (h : InOrder past s.world.spawned s.pool) {r : Render} (hr : r ∈ s.pool.renders)
    {outcome : Outcome} (hleaves : Leaves s r outcome t) :
    InOrder past t.world.spawned t.pool := by
  have left : InOrder past s.world.spawned
      ((if r.holdsSlot then s.pool.released else s.pool).withdrawn r) := by
    by_cases hholds : r.holdsSlot = true
    · rw [if_pos hholds]
      have more : ({ s.pool with free := s.pool.free + 1 } : Pool).Tables 1 := by
        refine { h.tables with slots := ?_ }
        have := h.tables.slots
        change s.pool.free + 1 + s.pool.held = s.pool.settings.maxRenders.toNat + 1
        omega
      have links := h.links.elsewhere (q := { s.pool with free := s.pool.free + 1 }) rfl
      have excuses := h.excuses.elsewhere (q := { s.pool with free := s.pool.free + 1 }) rfl
      have tables := h.tables.released
      have hmem : r ∈ s.pool.released.renders :=
        mem_granted hr more.tasks (by simpa [Render.holdsSlot] using hholds)
      exact ⟨tables.withdrawn hmem (by simp [hholds]),
        (links.granted more (Nat.succ_pos _)).withdrawn tables hmem,
        (excuses.granted links more (Nat.succ_pos _)).withdrawn r⟩
    · rw [if_neg hholds]
      exact ⟨h.tables.withdrawn hr (by simp [hholds]), h.links.withdrawn h.tables hr,
        h.excuses.withdrawn r⟩
  rw [hleaves.spawned]
  exact left.elsewhere (by rw [hleaves.pool])

theorem closes (h : InOrder past s.world.spawned s.pool) {gives : Nat → Prop}
    {concludes : Render → Scene → Prop}
    (hcloses : Closes past gives concludes s t) : InOrder past t.world.spawned t.pool := by
  cases hcloses with
  | goes hgoes => exact h.goes hgoes
  | @answers u _ x task outcome hgoes hx hclient hpool hworld =>
    have went := h.goes hgoes
    have dropped : InOrder past u.world.spawned (u.pool.dropStopper x.number) := by
      refine ⟨went.tables.elsewhere rfl rfl rfl rfl rfl rfl,
        went.links.dropStopper hx went.tables ?_, went.excuses.dropStopper x.number⟩
      intro other hsame
      rw [hclient] at hsame
      contradiction
    rw [hworld]
    exact dropped.elsewhere (by rw [hpool]; rfl)
  | ends hgoes _ _ hr _ hleaves _ hafter =>
    exact ((h.goes hgoes).leaves hr hleaves).goes hafter

theorem flag (h : InOrder past spawned pool) {id : String} (hid : id ∈ pool.inFlight) :
    InOrder past spawned (pool.flag id) := by
  have same := Pool.flag_eq pool id
  exact ⟨h.tables.flag hid, h.links.elsewhere (by rw [same]), h.excuses.elsewhere (by rw [same])⟩

/-- A new render disturbs nobody, because nobody has worked for its task before. -/
theorem joined (h : InOrder past spawned pool) {r : Render} {free : Nat}
    (hid : r.job.id ∉ pool.inFlight) (hwaits : r.isWaiting = true)
    (hfree : free + (if r.holdsSlot then 1 else 0) = pool.free)
    (hrenders : ∀ q ∈ pool.renders, q.task ≠ r.task)
    (hstoppers : ∀ s ∈ pool.stoppers, s.client.render? ≠ some r.task)
    (hordered : Ordered past r.task) : InOrder past spawned (pool.joined r free) := by
  have isOld : ∀ {x : Render}, x ∈ (pool.joined r free).renders → x.isWaiting = false →
      x ∈ pool.renders := by
    intro x hx hbusy
    rcases List.mem_append.mp hx with hx | hx
    · exact hx
    · obtain rfl := List.mem_singleton.mp hx
      rw [hwaits] at hbusy
      contradiction
  refine ⟨h.tables.join ?_ hid hfree, ?_, ?_⟩
  · intro hmem
    obtain ⟨q, hq, htask⟩ := List.mem_map.mp hmem
    exact hrenders q hq htask
  · have links := h.links
    refine { links with
      listening := links.listening.elsewhere rfl rfl rfl, settled := links.settled,
      watching := ?watching, serving := ?serving, guarded := ?guarded }
    case watching =>
      intro x hx pid number hphase
      have old := isOld hx (by simp [Render.isWaiting, isWaiting, hphase])
      exact links.watching x old pid number hphase
    case serving =>
      intro s hs x hx hclient
      rcases List.mem_append.mp hx with hx | hx
      · exact links.serving s hs x hx hclient
      · obtain rfl := List.mem_singleton.mp hx
        exact absurd hclient (hstoppers s hs)
    case guarded =>
      intro x hx hphase
      exact links.guarded x (isOld hx (by simp [Render.isWaiting, isWaiting, hphase])) hphase
  · refine { h.excuses with shielded := ?shielded, ordered := ?ordered }
    case shielded =>
      intro x hx hphase
      exact h.excuses.shielded x (isOld hx (by simp [Render.isWaiting, isWaiting, hphase])) hphase
    case ordered =>
      intro x hx
      rcases List.mem_append.mp hx with hx | hx
      · exact h.excuses.ordered x hx
      · obtain rfl := List.mem_singleton.mp hx
        exact hordered

theorem course (h : InOrder past s.world.spawned s.pool) {event : Event}
    (hcourse : Course past s event t) : InOrder past t.world.spawned t.pool := by
  cases hcourse with
  | quiet _ hcloses => exact h.closes hcloses
  | @flags task jobId _ hjob hgoes =>
    have flagged : InOrder past (s.onPool (·.flag jobId)).world.spawned
      (s.onPool (·.flag jobId)).pool := h.flag hjob
    exact flagged.goes hgoes
  | answersAtOnce hjob => exact (h.flag hjob).elsewhere rfl
  | notFound => exact h.elsewhere rfl
  | refused hpool hspawned =>
    rw [hspawned]
    exact h.elsewhere (by rw [hpool])
  | joins _ _ _ _ _ _ _ horder hgoes => exact horder.goes hgoes

end InOrder

end Rendering

end ClipRender
