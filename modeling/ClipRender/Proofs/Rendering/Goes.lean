import ClipRender.Proofs.Rendering.Order
import Mathlib.Logic.Relation

set_option autoImplicit false

/-!
How a pool goes on within one event: what lookouts and engines do, moves of renders and stoppers,
and new engines. All of it keeps the order of the pool, leaves the jobs and their marks as they are,
and takes no engine from its job.
-/

namespace ClipRender.Rendering

/-- What is true of a pool between two events. -/
structure InOrder (past : List Step) (spawned : Nat) (pool : Pool) : Prop where
  tables : pool.Tables 0
  links : pool.Links spawned
  excuses : pool.Excuses past

/-- The render as it was ordered, wherever it stands. -/
def Render.ordered (r : Render) : Render := { r with started := 0, phase := .queued }

def Render.isWaiting (r : Render) : Bool := Pool.isWaiting r

theorem Render.idle_of_isWaiting {r : Render} (h : r.isWaiting = true) : r.hasEngine = false := by
  cases hphase : r.phase <;> simp [isWaiting, Pool.isWaiting, hasEngine, hphase] at h ⊢

inductive Advances (past : List Step) (s t : Scene) : Prop
  | stirs (h : Stirs past s t)
  | moves (h : Pool.Moves past s.pool t.pool) (hfiles : t.world.files = s.world.files)
    (hspawned : t.world.spawned = s.world.spawned)
  /-- An engine starts. What its render does next is seen to in the same event. -/
  | spawns {r : Render} {script : Engine.Script} (hr : r ∈ s.pool.renders)
    (hphase : ∃ script, r.phase = .spawning script)
    (hfiles : t.world.files = (Scene.writeOutput s.world r.part script.output).files)
    (hpool : t.pool = { s.pool.setPhase r.task .stopping with
      processes := s.pool.processes ++ [.start (s.world.spawned + 1) script]
      active := (r.job.id, s.world.spawned + 1) :: s.pool.active })
    (hspawned : t.world.spawned = s.world.spawned + 1)

abbrev Goes (past : List Step) : Scene → Scene → Prop := Relation.ReflTransGen (Advances past)

namespace Pool

variable {past : List Step} {surplus spawned : Nat}

theorem Links.stirs {s t : Scene} (h : s.pool.Links spawned) (hstirs : Stirs past s t) :
    t.pool.Links spawned := by
  have processes : ∀ p ∈ t.pool.processes, ∃ q ∈ s.pool.processes, q.pid = p.pid := by
    intro p hp
    have hmem : p.pid ∈ t.pool.processes.map (·.pid) := List.mem_map.mpr ⟨p, hp, rfl⟩
    rw [hstirs.pids] at hmem
    exact List.mem_map.mp hmem
  exact {
    listening := hstirs.listening
    pids := by rw [hstirs.pids]; exact h.pids
    pidsKnown := by
      intro p hp
      obtain ⟨q, hq, hsame⟩ := processes p hp
      exact hsame ▸ h.pidsKnown q hq
    activePids := by rw [hstirs.active]; exact h.activePids
    activeKnown := by rw [hstirs.active]; exact h.activeKnown
    lookouts := by
      intro l hl
      obtain ⟨k, hk, follows⟩ := hstirs.lookouts l hl
      rw [follows.pid, follows.owner, hstirs.numbers]
      exact h.lookouts k hk
    settled := by
      intro l hl hsettled
      obtain ⟨k, hk, follows⟩ := hstirs.lookouts l hl
      rcases follows.settled hsettled with hold | hdown
      · rw [follows.pid]
        exact hstirs.stays_ended (h.settled k hk hold)
      · exact hdown
    stoppersDistinct := by rw [hstirs.stoppers]; exact h.stoppersDistinct
    stoppers := by rw [hstirs.stoppers, hstirs.numbers]; exact h.stoppers
    watching := by
      rw [hstirs.renders, hstirs.active, hstirs.numbers]
      intro r hr pid number hphase
      obtain ⟨hactive, hle, hall⟩ := h.watching r hr pid number hphase
      refine ⟨hactive, hle, fun l hl hnumber => ?_⟩
      obtain ⟨k, hk, follows⟩ := hstirs.lookouts l hl
      rw [follows.pid, follows.owner]
      exact hall k hk (follows.number ▸ hnumber)
    grace := by
      rw [hstirs.stoppers, hstirs.numbers]
      intro x hx number hat
      obtain ⟨hle, hall⟩ := h.grace x hx number hat
      refine ⟨hle, fun l hl hnumber => ?_⟩
      obtain ⟨k, hk, follows⟩ := hstirs.lookouts l hl
      rw [follows.pid, follows.owner]
      exact hall k hk (follows.number ▸ hnumber)
    serving := by rw [hstirs.stoppers, hstirs.renders, hstirs.active]; exact h.serving
    guarded := by
      rw [hstirs.stoppers, hstirs.renders, hstirs.active]
      exact fun r hr hphase pid hactive hrunning =>
        h.guarded r hr hphase pid hactive (hstirs.running pid hrunning) }

theorem Excuses.stirs {s t : Scene} (h : s.pool.Excuses past) (hstirs : Stirs past s t) :
    t.pool.Excuses past where
  aborted := by
    intro l hl hrecalled
    obtain ⟨k, hk, follows⟩ := hstirs.lookouts l hl
    rcases follows.recalled with hsame | ⟨htime, _⟩ | ⟨_, hblamed⟩
    · rw [hstirs.stoppers, follows.owner]
      exact h.aborted k hk (hsame ▸ hrecalled)
    · rw [htime] at hrecalled; contradiction
    · exact hblamed
  overdue := by
    intro l hl hwhy
    obtain ⟨k, hk, follows⟩ := hstirs.lookouts l hl
    have old : k.recalled = some .timeUp ∨ k.Late → Excused t.pool.settings past l.owner := by
      intro hold
      rw [hstirs.settings, follows.owner]
      exact h.overdue k hk hold
    rcases hwhy with htime | hlate
    · rcases follows.recalled with hsame | ⟨_, hwhy⟩ | ⟨haborted, _⟩
      · exact old (.inl (hsame ▸ htime))
      · exact hwhy.elim (fun hlate => old (.inr hlate)) id
      · rw [haborted] at htime; contradiction
    · exact (follows.late hlate).elim (fun hlate => old (.inr hlate)) id
  shielded := by rw [hstirs.renders]; exact h.shielded
  timeouts := by rw [hstirs.stoppers, hstirs.settings]; exact h.timeouts
  ordered := by rw [hstirs.renders]; exact h.ordered
  clients := by rw [hstirs.stoppers]; exact h.clients
  calls := by rw [hstirs.stoppers, hstirs.active]; exact h.calls

theorem Tables.stirs {s t : Scene} (h : s.pool.Tables surplus) (hstirs : Stirs past s t) :
    t.pool.Tables surplus :=
  h.elsewhere hstirs.renders hstirs.inFlight hstirs.flagged hstirs.active hstirs.free
    hstirs.settings

def spawn (pool : Pool) (r : Render) (pid : Nat) (script : Engine.Script) : Pool :=
  { pool.setPhase r.task .stopping with
    processes := pool.processes ++ [.start pid script]
    active := (r.job.id, pid) :: pool.active }

section Spawn

variable {pool : Pool} {r : Render} {script : Engine.Script}

theorem isRunning_spawn {pid : Nat} (hpid : pid ≤ spawned) :
    (pool.spawn r (spawned + 1) script).isRunning pid = pool.isRunning pid := by
  have hne : spawned + 1 ≠ pid := by omega
  simp [isRunning, process?, spawn, List.find?_append, Engine.Process.start, hne]

variable (hr : r ∈ pool.renders) (hphase : ∃ script, r.phase = .spawning script)

include hr hphase

theorem Tables.spawn (h : pool.Tables surplus) (pid : Nat) :
    (pool.spawn r pid script).Tables surplus := by
  obtain ⟨other, hphase⟩ := hphase
  have idle := h.no_engine hr (by simp [Render.hasEngine, hphase])
  have moved := h.setPhase hr .stopping (by simp [Render.holdsSlot, hphase]) (by simp) fun _ => rfl
  have started := moved.addEngine (mem_alter_of_mem hr fun r => { r with phase := .stopping }) rfl
    idle pid
  exact started.elsewhere rfl rfl rfl rfl rfl rfl

theorem Links.spawn (h : pool.Links spawned) (htables : pool.Tables surplus) :
    (pool.spawn r (spawned + 1) script).Links (spawned + 1) := by
  obtain ⟨other, hphase⟩ := hphase
  have idle : r.hasEngine = false := by simp [Render.hasEngine, hphase]
  have fresh : ∀ entry ∈ pool.active, entry.2 ≠ spawned + 1 := by
    intro entry hentry hpid
    have := h.activeKnown entry hentry
    omega
  refine {
    listening := h.listening.elsewhere rfl rfl rfl, pids := ?pids, pidsKnown := ?pidsKnown,
    activePids := ?activePids, activeKnown := ?activeKnown, lookouts := ?lookouts,
    settled := ?settled, stoppersDistinct := h.stoppersDistinct, stoppers := ?stoppers,
    watching := ?watching, grace := h.grace, serving := ?serving, guarded := ?guarded }
  case pids => exact nodup_numbered h.pids h.pidsKnown rfl
  case pidsKnown =>
    intro p hp
    rcases List.mem_append.mp hp with hp | hp
    · exact Nat.le_succ_of_le (h.pidsKnown p hp)
    · obtain rfl := List.mem_singleton.mp hp
      exact Nat.le_refl _
  case activePids =>
    change (List.map _ (_ :: pool.active)).Nodup
    rw [List.map_cons, List.nodup_cons]
    refine ⟨?_, h.activePids⟩
    intro hmem
    obtain ⟨entry, hentry, hpid⟩ := List.mem_map.mp hmem
    exact fresh entry hentry hpid
  case activeKnown =>
    intro entry hentry
    rcases List.mem_cons.mp hentry with rfl | hentry
    · exact Nat.le_refl _
    · exact Nat.le_succ_of_le (h.activeKnown entry hentry)
  case lookouts => exact fun l hl => (h.lookouts l hl).imp_left Nat.le_succ_of_le
  case settled =>
    intro l hl hsettled
    rw [isRunning_spawn (h.lookouts l hl).1]
    exact h.settled l hl hsettled
  case stoppers => exact fun x hx => (h.stoppers x hx).imp_right Nat.le_succ_of_le
  case watching =>
    intro x hx pid number hat
    rcases htables.mem_altered hr hx with rfl | ⟨hmem, _⟩
    · contradiction
    · obtain ⟨hactive, hrest⟩ := h.watching x hmem pid number hat
      exact ⟨List.mem_cons_of_mem _ hactive, hrest⟩
  case serving =>
    intro s hs x hx hclient
    rcases htables.mem_altered hr hx with rfl | ⟨hmem, _⟩
    · have := (h.serving s hs r hr hclient).1
      rw [idle] at this
      contradiction
    · obtain ⟨hstarted, hactive⟩ := h.serving s hs x hmem hclient
      exact ⟨hstarted, List.mem_cons_of_mem _ hactive⟩
  case guarded =>
    intro x hx hat pid hactive hrunning
    rcases htables.mem_altered hr hx with rfl | ⟨hmem, hother⟩
    · contradiction
    · rcases List.mem_cons.mp hactive with hnew | hold
      · have hid : x.job.id = r.job.id := (Prod.mk.inj hnew).1
        exact absurd (congrArg Render.task (htables.eq_of_id hmem hr hid)) hother
      · rw [isRunning_spawn (h.activeKnown _ hold)] at hrunning
        exact h.guarded x hmem hat pid hold hrunning

omit hphase in
theorem Excuses.spawn (h : pool.Excuses past) (hlinks : pool.Links spawned)
    (htables : pool.Tables surplus) :
    (pool.spawn r (spawned + 1) script).Excuses past := by
  have moved := h.renders hr (f := fun r => { r with phase := .stopping }) rfl (by simp) htables
  refine { moved with calls := ?_ }
  intro s hs task hclient
  obtain ⟨jobId, hcancels, hown⟩ := h.calls s hs task hclient
  refine ⟨jobId, hcancels, fun id hid => ?_⟩
  rcases List.mem_cons.mp hid with hnew | hold
  · have := (hlinks.stoppers s hs).2
    have hpid : s.pid = spawned + 1 := (Prod.mk.inj hnew).2
    omega
  · exact hown id hold

end Spawn

end Pool

namespace InOrder

variable {past : List Step} {s t : Scene}

theorem advances (h : InOrder past s.world.spawned s.pool) (hadvances : Advances past s t) :
    InOrder past t.world.spawned t.pool := by
  cases hadvances with
  | stirs hstirs =>
    rw [hstirs.spawned]
    exact ⟨h.tables.stirs hstirs, h.links.stirs hstirs, h.excuses.stirs hstirs⟩
  | moves hmoves _ hspawned =>
    rw [hspawned]
    exact ⟨h.tables.moves hmoves, h.links.moves h.tables hmoves,
      h.excuses.moves h.tables h.links hmoves⟩
  | @spawns r script hr hphase _ hpool hspawned =>
    rw [hspawned, hpool]
    exact ⟨h.tables.spawn hr hphase _, h.links.spawn hr hphase h.tables,
      h.excuses.spawn hr h.links h.tables⟩

theorem goes (h : InOrder past s.world.spawned s.pool) (hgoes : Goes past s t) :
    InOrder past t.world.spawned t.pool := by
  induction hgoes with
  | refl => exact h
  | tail _ hadvances ih => exact ih.advances hadvances

end InOrder

/-- What one scene takes over from another. -/
structure Keeps (s t : Scene) : Prop where
  settings : t.pool.settings = s.pool.settings
  inFlight : t.pool.inFlight = s.pool.inFlight
  flagged : t.pool.flagged = s.pool.flagged
  ended : t.pool.ended = s.pool.ended
  renders : t.pool.renders.map Render.ordered = s.pool.renders.map Render.ordered
  /-- Every engine that has started meanwhile is in the table. -/
  active : ∃ started, t.pool.active = started ++ s.pool.active ∧
    (∀ entry ∈ started, s.world.spawned < entry.2) ∧
    ∀ pid, s.world.spawned < pid → pid ≤ t.world.spawned → ∃ id, (id, pid) ∈ started
  spawned : s.world.spawned ≤ t.world.spawned
  running : ∀ pid, pid ≤ s.world.spawned → t.pool.isRunning pid = true →
    s.pool.isRunning pid = true
  /-- A render whose job was cancelled in time never starts its engine. -/
  waiting : ∀ r ∈ s.pool.renders, r.isWaiting = true → r.job.id ∈ s.pool.flagged →
    ∃ q ∈ t.pool.renders, q.ordered = r.ordered ∧ q.isWaiting = true
  /-- A call that cancels is not forgotten. -/
  calls : ∀ x ∈ s.pool.stoppers, ∀ task, x.client = .call task →
    ∃ y ∈ t.pool.stoppers, y.client = .call task ∧ y.pid = x.pid

namespace Keeps

variable {past : List Step} {s t u : Scene}

theorem refl (s : Scene) : Keeps s s where
  settings := rfl
  inFlight := rfl
  flagged := rfl
  ended := rfl
  renders := rfl
  active := ⟨[], rfl, by simp, fun pid hlow hhigh => by omega⟩
  spawned := Nat.le_refl _
  running _ _ hrunning := hrunning
  waiting r hr hwaiting _ := ⟨r, hr, rfl, hwaiting⟩
  calls x hx task hclient := ⟨x, hx, hclient, rfl⟩

theorem trans (h : Keeps s t) (k : Keeps t u) : Keeps s u where
  settings := k.settings.trans h.settings
  inFlight := k.inFlight.trans h.inFlight
  flagged := k.flagged.trans h.flagged
  ended := k.ended.trans h.ended
  renders := k.renders.trans h.renders
  active := by
    obtain ⟨first, hfirst, hlow, hearly⟩ := h.active
    obtain ⟨second, hsecond, hhigh, hlate⟩ := k.active
    refine ⟨second ++ first, by rw [hsecond, hfirst, List.append_assoc], ?_, ?_⟩
    · intro entry hentry
      rcases List.mem_append.mp hentry with hentry | hentry
      · exact Nat.lt_of_le_of_lt h.spawned (hhigh entry hentry)
      · exact hlow entry hentry
    · intro pid habove hbelow
      by_cases hpid : pid ≤ t.world.spawned
      · obtain ⟨id, hmem⟩ := hearly pid habove hpid
        exact ⟨id, List.mem_append_right _ hmem⟩
      · obtain ⟨id, hmem⟩ := hlate pid (Nat.lt_of_not_le hpid) hbelow
        exact ⟨id, List.mem_append_left _ hmem⟩
  spawned := Nat.le_trans h.spawned k.spawned
  running pid hpid hrunning :=
    h.running pid hpid (k.running pid (Nat.le_trans hpid h.spawned) hrunning)
  waiting := by
    intro r hr hwaiting hflag
    obtain ⟨q, hq, hsame, hqueues⟩ := h.waiting r hr hwaiting hflag
    have hid : q.job.id = r.job.id := congrArg (·.job.id) hsame
    obtain ⟨x, hx, hlast, hwaits⟩ := k.waiting q hq hqueues (by rw [hid, h.flagged]; exact hflag)
    exact ⟨x, hx, hlast.trans hsame, hwaits⟩
  calls := by
    intro x hx task hclient
    obtain ⟨y, hy, hsame, hpid⟩ := h.calls x hx task hclient
    obtain ⟨z, hz, hlast, hlastPid⟩ := k.calls y hy task hsame
    exact ⟨z, hz, hlast, hlastPid.trans hpid⟩

theorem ordered_alter (pool : Pool) (task : Nat) {f : Render → Render}
    (hf : ∀ r, (f r).ordered = r.ordered) :
    (pool.alter task f).renders.map Render.ordered = pool.renders.map Render.ordered := by
  rw [Pool.alter, List.map_map]
  apply List.map_congr_left
  intro r _
  by_cases htask : r.task = task
  · simpa [htask] using hf r
  · simp [htask]

theorem waiting_alter {pool : Pool} {r : Render} (htables : pool.Tables 0) (hr : r ∈ pool.renders)
    {f : Render → Render} (hordered : (f r).ordered = r.ordered)
    (hr' : r.isWaiting = true → r.job.id ∈ pool.flagged → (f r).isWaiting = true) :
    ∀ x ∈ pool.renders, x.isWaiting = true → x.job.id ∈ pool.flagged →
      ∃ q ∈ (pool.alter r.task f).renders, q.ordered = x.ordered ∧ q.isWaiting = true := by
  intro x hx hwaiting hflag
  by_cases htask : x.task = r.task
  · obtain rfl := htables.eq_of_task hx hr htask
    exact ⟨f x, Pool.mem_alter_of_mem hx f, hordered, hr' hwaiting hflag⟩
  · exact ⟨x, Pool.mem_alter_of_ne hx htask f, rfl, hwaiting⟩

theorem not_isWaiting_of_hasEngine {r : Render} (h : r.hasEngine = true) : r.isWaiting = false := by
  cases hphase : r.phase <;>
    simp [Render.hasEngine, Render.isWaiting, Pool.isWaiting, hphase] at h ⊢

theorem stirs (h : Stirs past s t) : Keeps s t where
  settings := h.settings
  inFlight := h.inFlight
  flagged := h.flagged
  ended := h.ended
  renders := by rw [h.renders]
  active := ⟨[], h.active, by simp, fun pid hlow hhigh => by have := h.spawned; omega⟩
  spawned := Nat.le_of_eq h.spawned.symm
  running pid _ hrunning := h.running pid hrunning
  waiting r hr hwaiting _ := ⟨r, h.renders ▸ hr, rfl, hwaiting⟩
  calls x hx task hclient := ⟨x, h.stoppers ▸ hx, hclient, rfl⟩

theorem of_pool (hpool : t.pool = { s.pool with
      free := t.pool.free, renders := t.pool.renders, stoppers := t.pool.stoppers,
      lookouts := t.pool.lookouts, listeners := t.pool.listeners, numbers := t.pool.numbers,
      statuses := t.pool.statuses })
    (hspawned : t.world.spawned = s.world.spawned)
    (hrenders : t.pool.renders.map Render.ordered = s.pool.renders.map Render.ordered)
    (hwaiting : ∀ r ∈ s.pool.renders, r.isWaiting = true → r.job.id ∈ s.pool.flagged →
      ∃ q ∈ t.pool.renders, q.ordered = r.ordered ∧ q.isWaiting = true)
    (hcalls : ∀ x ∈ s.pool.stoppers, ∀ task, x.client = .call task →
      ∃ y ∈ t.pool.stoppers, y.client = .call task ∧ y.pid = x.pid) : Keeps s t where
  settings := by rw [hpool]
  inFlight := by rw [hpool]
  flagged := by rw [hpool]
  ended := by rw [hpool]
  renders := hrenders
  active := ⟨[], by rw [hpool]; rfl, by simp, fun pid hlow hhigh => by omega⟩
  spawned := Nat.le_of_eq hspawned.symm
  running pid _ hrunning := by rw [hpool] at hrunning; exact hrunning
  waiting := hwaiting
  calls := hcalls

theorem moves (h : InOrder past s.world.spawned s.pool) (hmoves : Pool.Moves past s.pool t.pool)
    (hspawned : t.world.spawned = s.world.spawned) : Keeps s t := by
  obtain ⟨later, world, postings⟩ := t
  have sameCalls : ∀ x ∈ s.pool.stoppers, ∀ task, x.client = .call task →
      ∃ y ∈ s.pool.stoppers, y.client = .call task ∧ y.pid = x.pid :=
    fun x hx task hclient => ⟨x, hx, hclient, rfl⟩
  have moreCalls : ∀ {new : Stopper}, ∀ x ∈ s.pool.stoppers, ∀ task, x.client = .call task →
      ∃ y ∈ s.pool.stoppers ++ [new], y.client = .call task ∧ y.pid = x.pid :=
    fun x hx task hclient => ⟨x, List.mem_append_left _ hx, hclient, rfl⟩
  have staged : ∀ {number : Nat} {stage : Stage}, ∀ x ∈ s.pool.stoppers, ∀ task,
      x.client = .call task → ∃ y ∈ (s.pool.setStage number stage).stoppers,
        y.client = .call task ∧ y.pid = x.pid := by
    intro number stage x hx task hclient
    refine ⟨_, List.mem_map.mpr ⟨x, hx, rfl⟩, ?_⟩
    split
    · exact ⟨hclient, rfl⟩
    · exact ⟨hclient, rfl⟩
  have sameRenders : ∀ r ∈ s.pool.renders, r.isWaiting = true → r.job.id ∈ s.pool.flagged →
      ∃ q ∈ s.pool.renders, q.ordered = r.ordered ∧ q.isWaiting = true :=
    fun r hr hwaiting _ => ⟨r, hr, rfl, hwaiting⟩
  cases hmoves with
  | @granted r hr hfree =>
    obtain ⟨hmem, hqueued⟩ := Pool.find?_queued hr
    refine of_pool rfl hspawned (ordered_alter s.pool r.task fun _ => rfl) ?_ sameCalls
    exact waiting_alter h.tables hmem (f := fun r => { r with phase := .granted }) rfl fun _ _ => rfl
  | @begun r hr hphase hflag now script =>
    refine of_pool rfl hspawned (ordered_alter s.pool r.task fun _ => rfl) ?_ sameCalls
    exact waiting_alter h.tables hr (f := fun r => { r with phase := .spawning script, started := now })
      rfl fun _ hflagged => absurd hflagged hflag
  | @watched r l hr hengine =>
    refine of_pool rfl hspawned (ordered_alter s.pool r.task fun _ => rfl) ?_ sameCalls
    refine waiting_alter h.tables hr (f := fun r => { r with phase := .watching l.pid l.number })
      rfl fun hwaiting _ => ?_
    rw [not_isWaiting_of_hasEngine hengine] at hwaiting
    contradiction
  | @stopped r pid reason hr hengine =>
    refine of_pool rfl hspawned (ordered_alter s.pool r.task fun _ => rfl) ?_ moreCalls
    refine waiting_alter h.tables hr (f := fun r => { r with phase := .stopping }) rfl
      fun hwaiting _ => ?_
    rw [not_isWaiting_of_hasEngine hengine] at hwaiting
    contradiction
  | @shielded r pid hr hengine =>
    refine of_pool rfl hspawned (ordered_alter s.pool r.task fun _ => rfl) ?_ moreCalls
    refine waiting_alter h.tables hr (f := fun r => { r with phase := .shielded }) rfl
      fun hwaiting _ => ?_
    rw [not_isWaiting_of_hasEngine hengine] at hwaiting
    contradiction
  | assisted => exact of_pool rfl hspawned rfl sameRenders moreCalls
  | graced => exact of_pool rfl hspawned rfl sameRenders staged
  | killed => exact of_pool rfl hspawned rfl sameRenders staged
  | @dropped x hx hcall =>
    refine of_pool rfl hspawned rfl sameRenders fun y hy task hclient => ?_
    refine ⟨y, List.mem_filter.mpr ⟨hy, ?_⟩, hclient, rfl⟩
    rw [decide_eq_true_eq]
    intro hnumber
    obtain rfl := h.links.eq_of_stopper hx hy hnumber
    exact hcall task hclient
  | @abandoned other =>
    refine of_pool rfl hspawned rfl sameRenders fun y hy task hclient => ?_
    refine ⟨y, List.mem_map.mpr ⟨y, hy, if_neg ?_⟩, hclient, rfl⟩
    rw [hclient]
    exact Client.noConfusion

theorem advances (h : InOrder past s.world.spawned s.pool) (hadvances : Advances past s t) :
    Keeps s t := by
  cases hadvances with
  | stirs hstirs => exact stirs hstirs
  | moves hmoves _ hspawned => exact moves h hmoves hspawned
  | @spawns r script hr hphase _ hpool hspawned =>
    obtain ⟨other, hphase⟩ := hphase
    refine {
      settings := by rw [hpool]; rfl
      inFlight := by rw [hpool]; rfl
      flagged := by rw [hpool]; rfl
      ended := by rw [hpool]; rfl
      renders := by rw [hpool]; exact ordered_alter s.pool r.task fun _ => rfl
      active := ⟨[(r.job.id, s.world.spawned + 1)], by rw [hpool]; rfl, ?_, ?_⟩
      spawned := by omega
      running := ?_
      waiting := ?_
      calls := by rw [hpool]; exact fun x hx task hclient => ⟨x, hx, hclient, rfl⟩ }
    · intro entry hentry
      obtain rfl := List.mem_singleton.mp hentry
      exact Nat.lt_succ_self _
    · intro pid hlow hhigh
      have hpid : pid = s.world.spawned + 1 := by omega
      exact ⟨r.job.id, List.mem_singleton.mpr (by rw [hpid])⟩
    · intro pid hpid hrunning
      rw [hpool] at hrunning
      exact (Pool.isRunning_spawn hpid).symm.trans hrunning
    · rw [hpool]
      refine waiting_alter h.tables hr (f := fun r => { r with phase := .stopping }) rfl
        fun hwaiting _ => ?_
      simp [Render.isWaiting, Pool.isWaiting, hphase] at hwaiting

theorem goes (h : InOrder past s.world.spawned s.pool) (hgoes : Goes past s t) : Keeps s t := by
  induction hgoes with
  | refl => exact refl s
  | tail hgoes hadvances ih => exact ih.trans (advances (h.goes hgoes) hadvances)

end Keeps

end ClipRender.Rendering
