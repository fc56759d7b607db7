import ClipRender.Proofs.Rendering.Stir
import ClipRender.Proofs.Rendering.Tables

set_option autoImplicit false

/-!
What is true of a pool between two events. Besides the tables there are the links between renders,
stoppers, lookouts and engines, and the reasons in the past for whatever was recalled, shielded or
stopped.
-/

namespace ClipRender.Rendering

def Client.render? : Client → Option Nat
  | .render task _ => some task
  | .aborted task => some task
  | _ => none

namespace Pool

theorem Listening.elsewhere {p q : Pool} (h : p.Listening) (hlookouts : q.lookouts = p.lookouts)
    (hlisteners : q.listeners = p.listeners) (hnumbers : q.numbers = p.numbers) :
    q.Listening where
  distinct := by rw [hlookouts]; exact h.distinct
  numbered := by rw [hlookouts, hnumbers]; exact h.numbered
  known := by rw [hlisteners, hnumbers]; exact h.known
  waits := by rw [hlisteners, hlookouts]; exact h.waits

structure Links (spawned : Nat) (pool : Pool) : Prop where
  listening : pool.Listening
  pids : (pool.processes.map (·.pid)).Nodup
  pidsKnown : ∀ process ∈ pool.processes, process.pid ≤ spawned
  activePids : (pool.active.map (·.2)).Nodup
  activeKnown : ∀ entry ∈ pool.active, entry.2 ≤ spawned
  lookouts : ∀ l ∈ pool.lookouts, l.pid ≤ spawned ∧
    ∀ number, l.owner = .stopper number → number ≤ pool.numbers
  settled : ∀ l ∈ pool.lookouts, l.Settled → pool.isRunning l.pid = false
  stoppersDistinct : (pool.stoppers.map (·.number)).Nodup
  stoppers : ∀ s ∈ pool.stoppers, s.number ≤ pool.numbers ∧ s.pid ≤ spawned
  watching : ∀ r ∈ pool.renders, ∀ pid number, r.phase = .watching pid number →
    (r.job.id, pid) ∈ pool.active ∧ number ≤ pool.numbers ∧
      ∀ l ∈ pool.lookouts, l.number = number → l.pid = pid ∧ l.owner = .render r.task
  grace : ∀ s ∈ pool.stoppers, ∀ number, s.stage = .grace number →
    number ≤ pool.numbers ∧
      ∀ l ∈ pool.lookouts, l.number = number → l.pid = s.pid ∧ l.owner = .stopper s.number
  serving : ∀ s ∈ pool.stoppers, ∀ r ∈ pool.renders, s.client.render? = some r.task →
    r.hasEngine = true ∧ (r.job.id, s.pid) ∈ pool.active
  guarded : ∀ r ∈ pool.renders, r.phase = .shielded → ∀ pid, (r.job.id, pid) ∈ pool.active →
    pool.isRunning pid = true → ∃ s ∈ pool.stoppers, s.client = .aborted r.task

/-- Nothing is blamed on time or on an abort that has not come. -/
structure Excuses (past : List Step) (pool : Pool) : Prop where
  aborted : ∀ l ∈ pool.lookouts, l.recalled = some .aborted → Blamed pool.stoppers past l.owner
  overdue : ∀ l ∈ pool.lookouts, l.recalled = some .timeUp ∨ l.Late →
    Excused pool.settings past l.owner
  shielded : ∀ r ∈ pool.renders, r.phase = .shielded → Aborted past r.task
  timeouts : ∀ s ∈ pool.stoppers, ∀ task, s.client = .render task .timeout →
    Overdue pool.settings past task
  ordered : ∀ r ∈ pool.renders, Ordered past r.task
  clients : ∀ s ∈ pool.stoppers, ∀ task, s.client.render? = some task → Ordered past task
  calls : ∀ s ∈ pool.stoppers, ∀ task, s.client = .call task →
    ∃ jobId, Cancels past task jobId ∧ ∀ id, (id, s.pid) ∈ pool.active → id = jobId

/-- A lookout as it is sent out. Where no time is given it is recalled at once. -/
structure Fresh (past : List Step) (pool : Pool) (l : Lookout) : Prop where
  number : l.number = pool.numbers + 1
  stage : l.stage = .called
  announced : l.announced = false
  recalled : l.recalled = none ∨
    (l.recalled = some .timeUp ∧ Excused pool.settings past l.owner)

/-- One move of a render or a stopper. -/
inductive Moves (past : List Step) (pool : Pool) : Pool → Prop
  | granted {r : Render} (hr : pool.renders.find? (·.phase = .queued) = some r)
    (hfree : 0 < pool.free) :
    Moves past pool { pool.setPhase r.task .granted with free := pool.free - 1 }
  | begun {r : Render} (hr : r ∈ pool.renders) (hphase : r.phase = .granted)
    (hflag : r.job.id ∉ pool.flagged) (now : Nat) (script : Engine.Script) :
    Moves past pool ((Scene.markStarted pool r.task now script).setStatus r.task .running)
  | watched {r : Render} {l : Lookout} (hr : r ∈ pool.renders) (hengine : r.hasEngine = true)
    (hactive : (r.job.id, l.pid) ∈ pool.active) (hfresh : Fresh past pool l)
    (howner : l.owner = .render r.task) :
    Moves past pool { pool.setPhase r.task (.watching l.pid l.number) with
      lookouts := pool.lookouts ++ [l]
      numbers := pool.numbers + 1 }
  | stopped {r : Render} {pid : Nat} {reason : StopReason} (hr : r ∈ pool.renders)
    (hengine : r.hasEngine = true) (hactive : (r.job.id, pid) ∈ pool.active)
    (htime : reason = .timeout → Overdue pool.settings past r.task) :
    Moves past pool { pool.setPhase r.task .stopping with
      stoppers := pool.stoppers ++ [⟨pool.numbers + 1, pid, .called, .render r.task reason⟩]
      numbers := pool.numbers + 1 }
  | shielded {r : Render} {pid : Nat} (hr : r ∈ pool.renders) (hengine : r.hasEngine = true)
    (hactive : (r.job.id, pid) ∈ pool.active) (haborted : Aborted past r.task) :
    Moves past pool { pool.setPhase r.task .shielded with
      stoppers := pool.stoppers ++ [⟨pool.numbers + 1, pid, .called, .aborted r.task⟩]
      numbers := pool.numbers + 1 }
  | assisted {task pid : Nat} {jobId : String} (hcancels : Cancels past task jobId)
    (hactive : (jobId, pid) ∈ pool.active) :
    Moves past pool { pool with
      stoppers := pool.stoppers ++ [⟨pool.numbers + 1, pid, .called, .call task⟩]
      numbers := pool.numbers + 1 }
  | graced {s : Stopper} {l : Lookout} (hs : s ∈ pool.stoppers) (hpid : l.pid = s.pid)
    (hfresh : Fresh past pool l) (howner : l.owner = .stopper s.number) :
    Moves past pool { pool.setStage s.number (.grace l.number) with
      lookouts := pool.lookouts ++ [l]
      numbers := pool.numbers + 1 }
  | killed {s : Stopper} (hs : s ∈ pool.stoppers) :
    Moves past pool ((pool.setStage s.number .killed).listen s.pid (.stopper s.number))
  | dropped {s : Stopper} (hs : s ∈ pool.stoppers) (hcall : ∀ task, s.client ≠ .call task)
    (hended : ∀ task, s.client = .aborted task → pool.isRunning s.pid = false) :
    Moves past pool (pool.dropStopper s.number)
  | abandoned {task : Nat} (htask : ∀ r ∈ pool.renders, r.task ≠ task) :
    Moves past pool { pool with
      stoppers := pool.stoppers.map fun s =>
        if s.client = .aborted task then { s with client := .nobody } else s }

variable {past : List Step} {pool later : Pool} {surplus : Nat}

theorem Tables.moves (h : pool.Tables surplus) (hmoves : Moves past pool later) :
    later.Tables surplus := by
  cases hmoves with
  | granted hr hfree =>
    have granted := h.granted hfree
    rwa [Pool.granted, hr] at granted
  | @begun r hr hphase _ now script =>
    have begun : ({ pool.alter r.task (fun r => { r with phase := .spawning script, started := now })
        with free := pool.free } : Pool).Tables surplus := by
      refine h.alter hr rfl rfl ?_ ?_
      · simp [Render.hasEngine, hphase]
      · simp [Render.holdsSlot, hphase]
    exact begun.elsewhere rfl rfl rfl rfl rfl rfl
  | @watched r l hr hengine =>
    have moved := h.setPhase hr (.watching l.pid l.number) (Render.holdsSlot_of_hasEngine hengine)
      (by simp) fun _ => rfl
    exact moved.elsewhere rfl rfl rfl rfl rfl rfl
  | stopped hr hengine =>
    have moved := h.setPhase hr .stopping (Render.holdsSlot_of_hasEngine hengine) (by simp)
      fun _ => rfl
    exact moved.elsewhere rfl rfl rfl rfl rfl rfl
  | shielded hr hengine =>
    have moved := h.setPhase hr .shielded (Render.holdsSlot_of_hasEngine hengine) (by simp)
      fun _ => rfl
    exact moved.elsewhere rfl rfl rfl rfl rfl rfl
  | _ => exact h.elsewhere rfl rfl rfl rfl rfl rfl

theorem mem_setStage {number : Nat} {stage : Stage} {y : Stopper}
    (h : y ∈ (pool.setStage number stage).stoppers) :
    ∃ x ∈ pool.stoppers, y = x ∨ (x.number = number ∧ y = { x with stage := stage }) := by
  obtain ⟨x, hx, rfl⟩ := List.mem_map.mp h
  refine ⟨x, hx, ?_⟩
  split
  · next hnumber => exact .inr ⟨hnumber, rfl⟩
  · exact .inl rfl

namespace Links

variable {spawned : Nat} (h : pool.Links spawned)

include h

theorem addLookout {l : Lookout} (hnumber : l.number = pool.numbers + 1)
    (hstage : l.stage = .called) (hpid : l.pid ≤ spawned)
    (howner : ∀ number, l.owner = .stopper number → number ≤ pool.numbers) :
    ({ pool with
      lookouts := pool.lookouts ++ [l]
      numbers := pool.numbers + 1 } : Pool).Links spawned := by
  have old : ∀ {k : Lookout}, k ∈ pool.lookouts ++ [l] → k.number ≤ pool.numbers →
      k ∈ pool.lookouts := by
    intro k hk hle
    rcases List.mem_append.mp hk with hk | hk
    · exact hk
    · obtain rfl := List.mem_singleton.mp hk
      omega
  refine { h with
    listening := ⟨?distinct, ?numbered, ?known, ?waits⟩, lookouts := ?lookouts, settled := ?settled,
    stoppers := ?stoppers, watching := ?watching, grace := ?grace, serving := h.serving,
    guarded := h.guarded }
  case distinct => exact nodup_numbered h.listening.distinct h.listening.numbered hnumber
  case numbered =>
    intro k hk
    rcases List.mem_append.mp hk with hk | hk
    · exact Nat.le_succ_of_le (h.listening.numbered k hk)
    · obtain rfl := List.mem_singleton.mp hk
      exact Nat.le_of_eq hnumber
  case known =>
    exact fun entry hentry number hsame =>
      Nat.le_succ_of_le (h.listening.known entry hentry number hsame)
  case waits =>
    intro entry hentry k hk hsame
    exact h.listening.waits entry hentry k (old hk (h.listening.known entry hentry _ hsame)) hsame
  case lookouts =>
    intro k hk
    rcases List.mem_append.mp hk with hk | hk
    · obtain ⟨hle, hown⟩ := h.lookouts k hk
      exact ⟨hle, fun number hsame => Nat.le_succ_of_le (hown number hsame)⟩
    · obtain rfl := List.mem_singleton.mp hk
      exact ⟨hpid, fun number hsame => Nat.le_succ_of_le (howner number hsame)⟩
  case settled =>
    intro k hk hsettled
    rcases List.mem_append.mp hk with hk | hk
    · exact h.settled k hk hsettled
    · obtain rfl := List.mem_singleton.mp hk
      rcases hsettled with hreport | ⟨hback, _⟩
      · rw [hstage] at hreport; contradiction
      · rw [hstage] at hback; contradiction
  case stoppers => exact fun s hs => (h.stoppers s hs).imp_left Nat.le_succ_of_le
  case watching =>
    intro r hr pid number hphase
    obtain ⟨hactive, hle, hall⟩ := h.watching r hr pid number hphase
    exact ⟨hactive, Nat.le_succ_of_le hle, fun k hk hsame => hall k (old hk (hsame ▸ hle)) hsame⟩
  case grace =>
    intro s hs number hat
    obtain ⟨hle, hall⟩ := h.grace s hs number hat
    exact ⟨Nat.le_succ_of_le hle, fun k hk hsame => hall k (old hk (hsame ▸ hle)) hsame⟩

theorem addStopper {s : Stopper} (hnumber : s.number = pool.numbers + 1)
    (hstage : s.stage = .called) (hpid : s.pid ≤ spawned)
    (hserves : ∀ r ∈ pool.renders, s.client.render? = some r.task →
      r.hasEngine = true ∧ (r.job.id, s.pid) ∈ pool.active) :
    ({ pool with
      stoppers := pool.stoppers ++ [s]
      numbers := pool.numbers + 1 } : Pool).Links spawned := by
  refine { h with
    listening := ⟨h.listening.distinct, ?numbered, ?known, h.listening.waits⟩,
    lookouts := ?lookouts, stoppersDistinct := ?stoppersDistinct, stoppers := ?stoppers,
    watching := ?watching, grace := ?grace, serving := ?serving, guarded := ?guarded }
  case numbered => exact fun k hk => Nat.le_succ_of_le (h.listening.numbered k hk)
  case known =>
    exact fun entry hentry number hsame =>
      Nat.le_succ_of_le (h.listening.known entry hentry number hsame)
  case lookouts =>
    intro k hk
    obtain ⟨hle, hown⟩ := h.lookouts k hk
    exact ⟨hle, fun number hsame => Nat.le_succ_of_le (hown number hsame)⟩
  case stoppersDistinct =>
    exact nodup_numbered h.stoppersDistinct (fun x hx => (h.stoppers x hx).1) hnumber
  case stoppers =>
    intro x hx
    rcases List.mem_append.mp hx with hx | hx
    · exact (h.stoppers x hx).imp_left Nat.le_succ_of_le
    · obtain rfl := List.mem_singleton.mp hx
      exact ⟨Nat.le_of_eq hnumber, hpid⟩
  case watching =>
    intro r hr pid number hphase
    obtain ⟨hactive, hle, hall⟩ := h.watching r hr pid number hphase
    exact ⟨hactive, Nat.le_succ_of_le hle, hall⟩
  case grace =>
    intro x hx number hat
    rcases List.mem_append.mp hx with hx | hx
    · obtain ⟨hle, hall⟩ := h.grace x hx number hat
      exact ⟨Nat.le_succ_of_le hle, hall⟩
    · obtain rfl := List.mem_singleton.mp hx
      rw [hstage] at hat
      contradiction
  case serving =>
    intro x hx r hr hclient
    rcases List.mem_append.mp hx with hx | hx
    · exact h.serving x hx r hr hclient
    · obtain rfl := List.mem_singleton.mp hx
      exact hserves r hr hclient
  case guarded =>
    intro r hr hphase pid hactive hrunning
    obtain ⟨x, hx, hclient⟩ := h.guarded r hr hphase pid hactive hrunning
    exact ⟨x, List.mem_append_left _ hx, hclient⟩

theorem alter_idle {r : Render} (hr : r ∈ pool.renders) (htables : pool.Tables surplus)
    {f : Render → Render} (htask : (f r).task = r.task) (hidle : r.hasEngine = false)
    (hlater : (f r).hasEngine = false) : (pool.alter r.task f).Links spawned := by
  refine { h with
    listening := h.listening.elsewhere rfl rfl rfl, settled := h.settled, watching := ?watching,
    serving := ?serving, guarded := ?guarded }
  case watching =>
    intro x hx pid number hphase
    rcases htables.mem_altered hr hx with rfl | ⟨hmem, _⟩
    · simp [Render.hasEngine, hphase] at hlater
    · exact h.watching x hmem pid number hphase
  case serving =>
    intro s hs x hx hclient
    rcases htables.mem_altered hr hx with rfl | ⟨hmem, _⟩
    · rw [htask] at hclient
      have := (h.serving s hs r hr hclient).1
      rw [hidle] at this
      contradiction
    · exact h.serving s hs x hmem hclient
  case guarded =>
    intro x hx hphase pid hactive hrunning
    rcases htables.mem_altered hr hx with rfl | ⟨hmem, _⟩
    · simp [Render.hasEngine, hphase] at hlater
    · exact h.guarded x hmem hphase pid hactive hrunning

theorem setPhase {r : Render} (hr : r ∈ pool.renders) (htables : pool.Tables surplus)
    {phase : Phase} (hengine : ({ r with phase := phase } : Render).hasEngine = true)
    (hwatching : ∀ pid number, phase = .watching pid number →
      (r.job.id, pid) ∈ pool.active ∧ number ≤ pool.numbers ∧
        ∀ l ∈ pool.lookouts, l.number = number → l.pid = pid ∧ l.owner = .render r.task)
    (hguarded : phase = .shielded → ∃ s ∈ pool.stoppers, s.client = .aborted r.task) :
    (pool.setPhase r.task phase).Links spawned := by
  refine { h with
    listening := h.listening.elsewhere rfl rfl rfl, settled := h.settled, watching := ?watching,
    serving := ?serving, guarded := ?guarded }
  case watching =>
    intro x hx pid number hphase
    rcases htables.mem_altered hr hx with rfl | ⟨hmem, _⟩
    · exact hwatching pid number hphase
    · exact h.watching x hmem pid number hphase
  case serving =>
    intro s hs x hx hclient
    rcases htables.mem_altered hr hx with rfl | ⟨hmem, _⟩
    · exact ⟨hengine, (h.serving s hs r hr hclient).2⟩
    · exact h.serving s hs x hmem hclient
  case guarded =>
    intro x hx hphase pid hactive hrunning
    rcases htables.mem_altered hr hx with rfl | ⟨hmem, _⟩
    · exact hguarded hphase
    · exact h.guarded x hmem hphase pid hactive hrunning

theorem eq_of_stopper {s x : Stopper} (hs : s ∈ pool.stoppers) (hx : x ∈ pool.stoppers)
    (hnumber : x.number = s.number) : x = s :=
  List.inj_on_of_nodup_map h.stoppersDistinct hx hs hnumber

theorem setStage {s : Stopper} (hs : s ∈ pool.stoppers) {stage : Stage}
    (hgrace : ∀ number, stage = .grace number → number ≤ pool.numbers ∧
      ∀ l ∈ pool.lookouts, l.number = number → l.pid = s.pid ∧ l.owner = .stopper s.number) :
    (pool.setStage s.number stage).Links spawned := by
  refine { h with
    listening := h.listening.elsewhere rfl rfl rfl, settled := h.settled,
    stoppersDistinct := ?stoppersDistinct, stoppers := ?stoppers, grace := ?grace,
    serving := ?serving, guarded := ?guarded }
  case stoppersDistinct =>
    have same : (pool.setStage s.number stage).stoppers.map (·.number)
        = pool.stoppers.map (·.number) := by
      rw [Pool.setStage, List.map_map]
      apply List.map_congr_left
      intro x _
      by_cases hnumber : x.number = s.number <;> simp [hnumber]
    rw [same]
    exact h.stoppersDistinct
  case stoppers =>
    intro y hy
    obtain ⟨x, hx, hold | ⟨_, rfl⟩⟩ := mem_setStage hy
    · exact hold ▸ h.stoppers x hx
    · exact h.stoppers x hx
  case grace =>
    intro y hy number hat
    obtain ⟨x, hx, hold | ⟨hnumber, rfl⟩⟩ := mem_setStage hy
    · exact h.grace y (hold ▸ hx) number hat
    · obtain rfl := h.eq_of_stopper hs hx hnumber
      exact hgrace number hat
  case serving =>
    intro y hy r hr hclient
    obtain ⟨x, hx, hold | ⟨_, rfl⟩⟩ := mem_setStage hy
    · exact h.serving y (hold ▸ hx) r hr hclient
    · exact h.serving x hx r hr hclient
  case guarded =>
    intro r hr hphase pid hactive hrunning
    obtain ⟨x, hx, hclient⟩ := h.guarded r hr hphase pid hactive hrunning
    refine ⟨_, List.mem_map.mpr ⟨x, hx, rfl⟩, ?_⟩
    by_cases hnumber : x.number = s.number
    · rw [if_pos hnumber]
      exact hclient
    · rw [if_neg hnumber]
      exact hclient

theorem listenStopper (pid number : Nat) : (pool.listen pid (.stopper number)).Links spawned := by
  refine { h with
    listening := ⟨h.listening.distinct, h.listening.numbered, ?known, ?waits⟩,
    settled := h.settled }
  case known =>
    intro entry hentry other hsame
    rcases List.mem_append.mp hentry with hentry | hentry
    · exact h.listening.known entry hentry other hsame
    · obtain rfl := List.mem_singleton.mp hentry
      contradiction
  case waits =>
    intro entry hentry l hl hsame
    rcases List.mem_append.mp hentry with hentry | hentry
    · exact h.listening.waits entry hentry l hl hsame
    · obtain rfl := List.mem_singleton.mp hentry
      contradiction

theorem dropStopper {s : Stopper} (hs : s ∈ pool.stoppers) (htables : pool.Tables surplus)
    (hended : ∀ task, s.client = .aborted task → pool.isRunning s.pid = false) :
    (pool.dropStopper s.number).Links spawned := by
  refine { h with
    listening := h.listening.elsewhere rfl rfl rfl, settled := h.settled,
    stoppersDistinct := ?stoppersDistinct, stoppers := ?stoppers, grace := ?grace,
    serving := ?serving, guarded := ?guarded }
  case stoppersDistinct => exact h.stoppersDistinct.sublist (List.filter_sublist.map _)
  case stoppers => exact fun x hx => h.stoppers x (List.mem_filter.mp hx).1
  case grace => exact fun x hx => h.grace x (List.mem_filter.mp hx).1
  case serving => exact fun x hx => h.serving x (List.mem_filter.mp hx).1
  case guarded =>
    intro r hr hphase pid hactive hrunning
    obtain ⟨x, hx, hclient⟩ := h.guarded r hr hphase pid hactive hrunning
    refine ⟨x, List.mem_filter.mpr ⟨hx, ?_⟩, hclient⟩
    rw [decide_eq_true_eq]
    intro hnumber
    -- The stopper that goes would be the one of this render, whose engine has ended.
    obtain rfl := h.eq_of_stopper hs hx hnumber
    have hown := (h.serving x hx r hr (by rw [hclient]; rfl)).2
    have hpid : (r.job.id, pid) = (r.job.id, x.pid) :=
      List.inj_on_of_nodup_map htables.activeIds hactive hown rfl
    change pool.isRunning pid = true at hrunning
    rw [(Prod.mk.inj hpid).2, hended r.task hclient] at hrunning
    contradiction

theorem abandon {task : Nat} (htask : ∀ r ∈ pool.renders, r.task ≠ task) :
    ({ pool with
      stoppers := pool.stoppers.map fun s =>
        if s.client = .aborted task then { s with client := .nobody } else s } :
      Pool).Links spawned := by
  have stem : ∀ {y : Stopper}, (y ∈ pool.stoppers.map fun s =>
      if s.client = .aborted task then { s with client := .nobody } else s) →
      ∃ x ∈ pool.stoppers, y.number = x.number ∧ y.pid = x.pid ∧ y.stage = x.stage ∧
        (y.client = x.client ∨ y.client = .nobody) := by
    intro y hy
    obtain ⟨x, hx, rfl⟩ := List.mem_map.mp hy
    refine ⟨x, hx, ?_⟩
    split
    · exact ⟨rfl, rfl, rfl, .inr rfl⟩
    · exact ⟨rfl, rfl, rfl, .inl rfl⟩
  refine { h with
    listening := h.listening.elsewhere rfl rfl rfl, settled := h.settled,
    stoppersDistinct := ?stoppersDistinct, stoppers := ?stoppers, grace := ?grace,
    serving := ?serving, guarded := ?guarded }
  case stoppersDistinct =>
    rw [List.map_map]
    have same : pool.stoppers.map ((·.number) ∘ fun s : Stopper =>
        if s.client = .aborted task then { s with client := .nobody } else s)
        = pool.stoppers.map (·.number) := by
      apply List.map_congr_left
      intro x _
      by_cases hclient : x.client = .aborted task <;> simp [hclient]
    rw [same]
    exact h.stoppersDistinct
  case stoppers =>
    intro y hy
    obtain ⟨x, hx, hnumber, hpid, _⟩ := stem hy
    rw [hnumber, hpid]
    exact h.stoppers x hx
  case grace =>
    intro y hy number hat
    obtain ⟨x, hx, hnumber, hpid, hstage, _⟩ := stem hy
    rw [hnumber, hpid]
    exact h.grace x hx number (hstage ▸ hat)
  case serving =>
    intro y hy r hr hserves
    obtain ⟨x, hx, _, hpid, _, hclient | hclient⟩ := stem hy
    · rw [hpid]
      exact h.serving x hx r hr (hclient ▸ hserves)
    · rw [hclient] at hserves
      contradiction
  case guarded =>
    intro r hr hphase pid hactive hrunning
    obtain ⟨x, hx, hclient⟩ := h.guarded r hr hphase pid hactive hrunning
    refine ⟨x, List.mem_map.mpr ⟨x, hx, if_neg ?_⟩, hclient⟩
    rw [hclient]
    exact fun hsame => htask r hr (Client.aborted.inj hsame)

theorem moves (htables : pool.Tables surplus) (hmoves : Moves past pool later) :
    later.Links spawned := by
  cases hmoves with
  | granted hr hfree =>
    obtain ⟨hmem, hqueued⟩ := find?_queued hr
    have idle := h.alter_idle hmem htables (f := fun r => { r with phase := .granted }) rfl
      (by simp [Render.hasEngine, hqueued]) rfl
    exact { idle with
      listening := idle.listening.elsewhere rfl rfl rfl, settled := idle.settled,
      guarded := idle.guarded }
  | @begun r hr hphase _ now script =>
    have begun := h.alter_idle hr htables
      (f := fun r => { r with phase := .spawning script, started := now }) rfl
      (by simp [Render.hasEngine, hphase]) rfl
    exact { begun with
      listening := begun.listening.elsewhere rfl rfl rfl, settled := begun.settled,
      guarded := begun.guarded }
  | @watched r l hr hengine hactive hfresh howner =>
    have sent := h.addLookout hfresh.number hfresh.stage (h.activeKnown _ hactive)
      (by rw [howner]; exact fun _ hsame => by contradiction)
    refine sent.setPhase hr (htables.elsewhere rfl rfl rfl rfl rfl rfl) rfl ?_ (by simp)
    intro pid number hphase
    obtain ⟨rfl, rfl⟩ := Phase.watching.inj hphase
    refine ⟨hactive, Nat.le_of_eq hfresh.number, ?_⟩
    intro k hk hnumber
    obtain rfl := sent.listening.eq_of_number hk
      (List.mem_append_right _ (List.mem_singleton.mpr rfl)) hnumber
    exact ⟨rfl, howner⟩
  | @stopped r pid reason hr hengine hactive htime =>
    have added := h.addStopper (s := ⟨pool.numbers + 1, pid, .called, .render r.task reason⟩) rfl rfl
      (h.activeKnown _ hactive) ?_
    · exact added.setPhase hr (htables.elsewhere rfl rfl rfl rfl rfl rfl) rfl (by simp) (by simp)
    · intro q hq hclient
      obtain rfl := htables.eq_of_task hr hq (Option.some.inj hclient)
      exact ⟨hengine, hactive⟩
  | @shielded r pid hr hengine hactive haborted =>
    have added := h.addStopper (s := ⟨pool.numbers + 1, pid, .called, .aborted r.task⟩) rfl rfl
      (h.activeKnown _ hactive) ?_
    · refine added.setPhase hr (htables.elsewhere rfl rfl rfl rfl rfl rfl) rfl (by simp) ?_
      exact fun _ => ⟨_, List.mem_append_right _ (List.mem_singleton.mpr rfl), rfl⟩
    · intro q hq hclient
      obtain rfl := htables.eq_of_task hr hq (Option.some.inj hclient)
      exact ⟨hengine, hactive⟩
  | @assisted task pid jobId hcancels hactive =>
    exact h.addStopper (s := ⟨pool.numbers + 1, pid, .called, .call task⟩) rfl rfl
      (h.activeKnown _ hactive) fun _ _ hclient => by contradiction
  | @graced s l hs hpid hfresh howner =>
    have bounds := h.stoppers s hs
    have sent := h.addLookout hfresh.number hfresh.stage (by rw [hpid]; exact bounds.2)
      (by rw [howner]; exact fun _ hsame => Party.stopper.inj hsame ▸ bounds.1)
    refine sent.setStage hs ?_
    intro number hstage
    obtain rfl := Stage.grace.inj hstage
    refine ⟨Nat.le_of_eq hfresh.number, ?_⟩
    intro k hk hnumber
    obtain rfl := sent.listening.eq_of_number hk
      (List.mem_append_right _ (List.mem_singleton.mpr rfl)) hnumber
    exact ⟨hpid, howner⟩
  | @killed s hs =>
    exact (h.setStage hs (by simp)).listenStopper s.pid s.number
  | dropped hs _ hended => exact h.dropStopper hs htables hended
  | abandoned htask => exact h.abandon htask

end Links

theorem blamed_of_stem {stoppers others : List Stopper} {owner : Party}
    (h : Blamed stoppers past owner)
    (hstem : ∀ y ∈ others, owner = .stopper y.number → ∃ x ∈ stoppers, x.number = y.number ∧
      ∀ task, Scene.worksIn task x = true → Scene.worksIn task y = true) :
    Blamed others past owner := by
  cases owner with
  | render task => exact h
  | stopper number =>
    intro y hy hnumber
    obtain ⟨x, hx, hsame, hwork⟩ := hstem y hy (by rw [hnumber])
    obtain ⟨task, hworks, haborted⟩ := h x hx (hsame.trans hnumber)
    exact ⟨task, hwork task hworks, haborted⟩

namespace Excuses

variable {spawned : Nat} (h : pool.Excuses past)

include h

theorem renders {r : Render} (hr : r ∈ pool.renders) {f : Render → Render}
    (htask : (f r).task = r.task) (hshielded : (f r).phase = .shielded → Aborted past r.task)
    (htables : pool.Tables surplus) : (pool.alter r.task f).Excuses past := by
  refine { h with shielded := ?shielded, ordered := ?ordered }
  case shielded =>
    intro x hx hphase
    rcases htables.mem_altered hr hx with rfl | ⟨hmem, _⟩
    · rw [htask]
      exact hshielded hphase
    · exact h.shielded x hmem hphase
  case ordered =>
    intro x hx
    rcases htables.mem_altered hr hx with rfl | ⟨hmem, _⟩
    · rw [htask]
      exact h.ordered r hr
    · exact h.ordered x hmem

theorem addLookout {l : Lookout} (hfresh : Fresh past pool l) :
    ({ pool with
      lookouts := pool.lookouts ++ [l]
      numbers := pool.numbers + 1 } : Pool).Excuses past := by
  refine { h with aborted := ?aborted, overdue := ?overdue }
  case aborted =>
    intro k hk hrecalled
    rcases List.mem_append.mp hk with hk | hk
    · exact h.aborted k hk hrecalled
    · obtain rfl := List.mem_singleton.mp hk
      rcases hfresh.recalled with hnone | ⟨htime, _⟩
      · rw [hnone] at hrecalled; contradiction
      · rw [htime] at hrecalled; contradiction
  case overdue =>
    intro k hk hwhy
    rcases List.mem_append.mp hk with hk | hk
    · exact h.overdue k hk hwhy
    · obtain rfl := List.mem_singleton.mp hk
      rcases hwhy with htime | ⟨hannounced, _⟩
      · rcases hfresh.recalled with hnone | ⟨_, hexcused⟩
        · rw [hnone] at htime; contradiction
        · exact hexcused
      · rw [hfresh.announced] at hannounced; contradiction

theorem addStopper {s : Stopper} (hlinks : pool.Links spawned) (hnumber : s.number = pool.numbers + 1)
    (htime : ∀ task, s.client = .render task .timeout → Overdue pool.settings past task)
    (hclient : ∀ task, s.client.render? = some task → Ordered past task)
    (hcall : ∀ task, s.client = .call task →
      ∃ jobId, Cancels past task jobId ∧ ∀ id, (id, s.pid) ∈ pool.active → id = jobId) :
    ({ pool with
      stoppers := pool.stoppers ++ [s]
      numbers := pool.numbers + 1 } : Pool).Excuses past := by
  refine { h with aborted := ?aborted, timeouts := ?timeouts, clients := ?clients, calls := ?calls }
  case aborted =>
    intro l hl hrecalled
    refine blamed_of_stem (h.aborted l hl hrecalled) ?_
    intro y hy howner
    rcases List.mem_append.mp hy with hy | hy
    · exact ⟨y, hy, rfl, fun _ hworks => hworks⟩
    · obtain rfl := List.mem_singleton.mp hy
      have := (hlinks.lookouts l hl).2 y.number howner
      omega
  case timeouts =>
    intro x hx task hsame
    rcases List.mem_append.mp hx with hx | hx
    · exact h.timeouts x hx task hsame
    · obtain rfl := List.mem_singleton.mp hx
      exact htime task hsame
  case clients =>
    intro x hx task hsame
    rcases List.mem_append.mp hx with hx | hx
    · exact h.clients x hx task hsame
    · obtain rfl := List.mem_singleton.mp hx
      exact hclient task hsame
  case calls =>
    intro x hx task hsame
    rcases List.mem_append.mp hx with hx | hx
    · exact h.calls x hx task hsame
    · obtain rfl := List.mem_singleton.mp hx
      exact hcall task hsame

/-- Each stopper stems from an earlier one that worked for the same client. Only an aborted render
may be gone. -/
theorem restaff {stoppers : List Stopper}
    (hstem : ∀ y ∈ stoppers, ∃ x ∈ pool.stoppers, y.number = x.number ∧ y.pid = x.pid ∧
      (y.client = x.client ∨ (y.client = .nobody ∧ ∃ task, x.client = .aborted task))) :
    ({ pool with stoppers := stoppers } : Pool).Excuses past := by
  refine { h with aborted := ?aborted, timeouts := ?timeouts, clients := ?clients, calls := ?calls }
  case aborted =>
    intro l hl hrecalled
    refine blamed_of_stem (h.aborted l hl hrecalled) ?_
    intro y hy _
    obtain ⟨x, hx, hnumber, _, hclient | ⟨_, other, hclient⟩⟩ := hstem y hy
    · refine ⟨x, hx, hnumber.symm, fun task hworks => ?_⟩
      rw [Scene.worksIn, hclient]
      exact hworks
    · refine ⟨x, hx, hnumber.symm, fun task hworks => ?_⟩
      rw [Scene.worksIn, hclient] at hworks
      contradiction
  case timeouts =>
    intro y hy task hsame
    obtain ⟨x, hx, _, _, hclient | ⟨hclient, _⟩⟩ := hstem y hy
    · exact h.timeouts x hx task (hclient ▸ hsame)
    · rw [hclient] at hsame; contradiction
  case clients =>
    intro y hy task hsame
    obtain ⟨x, hx, _, _, hclient | ⟨hclient, _⟩⟩ := hstem y hy
    · exact h.clients x hx task (hclient ▸ hsame)
    · rw [hclient] at hsame; contradiction
  case calls =>
    intro y hy task hsame
    obtain ⟨x, hx, _, hpid, hclient | ⟨hclient, _⟩⟩ := hstem y hy
    · obtain ⟨jobId, hcancels, hown⟩ := h.calls x hx task (hclient ▸ hsame)
      exact ⟨jobId, hcancels, by rw [hpid]; exact hown⟩
    · rw [hclient] at hsame; contradiction

theorem dropStopper (number : Nat) : (pool.dropStopper number).Excuses past :=
  h.restaff fun y hy => ⟨y, (List.mem_filter.mp hy).1, rfl, rfl, .inl rfl⟩

theorem moves (htables : pool.Tables surplus) (hlinks : pool.Links spawned)
    (hmoves : Moves past pool later) : later.Excuses past := by
  cases hmoves with
  | granted hr hfree =>
    have granted := h.renders (find?_queued hr).1 (f := fun r => { r with phase := .granted }) rfl
      (by simp) htables
    exact { granted with ordered := granted.ordered }
  | @begun r hr hphase _ now script =>
    have begun := h.renders hr
      (f := fun r => { r with phase := .spawning script, started := now }) rfl (by simp) htables
    exact { begun with ordered := begun.ordered }
  | @watched r l hr hengine hactive hfresh howner =>
    have sent := h.addLookout hfresh
    exact sent.renders hr (f := fun r => { r with phase := .watching l.pid l.number }) rfl (by simp)
      (htables.elsewhere rfl rfl rfl rfl rfl rfl)
  | @stopped r pid reason hr hengine hactive htime =>
    have added := h.addStopper (s := ⟨pool.numbers + 1, pid, .called, .render r.task reason⟩) hlinks
      rfl ?_ ?_ (by simp)
    · exact added.renders hr (f := fun r => { r with phase := .stopping }) rfl (by simp)
        (htables.elsewhere rfl rfl rfl rfl rfl rfl)
    · intro task hclient
      obtain ⟨rfl, hreason⟩ := Client.render.inj hclient
      exact htime hreason
    · intro task hclient
      obtain rfl := Option.some.inj hclient
      exact h.ordered r hr
  | @shielded r pid hr hengine hactive haborted =>
    have added := h.addStopper (s := ⟨pool.numbers + 1, pid, .called, .aborted r.task⟩) hlinks
      rfl (by simp) ?_ (by simp)
    · exact added.renders hr (f := fun r => { r with phase := .shielded }) rfl (fun _ => haborted)
        (htables.elsewhere rfl rfl rfl rfl rfl rfl)
    · intro task hclient
      obtain rfl := Option.some.inj hclient
      exact h.ordered r hr
  | @assisted task pid jobId hcancels hactive =>
    refine h.addStopper (s := ⟨pool.numbers + 1, pid, .called, .call task⟩) hlinks rfl (by simp)
      (by simp [Client.render?]) ?_
    intro other hclient
    obtain rfl := Client.call.inj hclient
    refine ⟨jobId, hcancels, fun id hid => ?_⟩
    have same : (id, pid) = (jobId, pid) :=
      List.inj_on_of_nodup_map hlinks.activePids hid hactive rfl
    exact (Prod.mk.inj same).1
  | @graced s l hs hpid hfresh howner =>
    refine (h.addLookout hfresh).restaff ?_
    intro y hy
    obtain ⟨x, hx, rfl | ⟨_, rfl⟩⟩ := mem_setStage hy
    · exact ⟨y, hx, rfl, rfl, .inl rfl⟩
    · exact ⟨x, hx, rfl, rfl, .inl rfl⟩
  | @killed s hs =>
    have staged : (pool.setStage s.number .killed).Excuses past := by
      refine h.restaff ?_
      intro y hy
      obtain ⟨x, hx, rfl | ⟨_, rfl⟩⟩ := mem_setStage hy
      · exact ⟨y, hx, rfl, rfl, .inl rfl⟩
      · exact ⟨x, hx, rfl, rfl, .inl rfl⟩
    exact { staged with ordered := staged.ordered }
  | dropped hs => exact h.dropStopper _
  | abandoned htask =>
    refine h.restaff ?_
    intro y hy
    obtain ⟨x, hx, rfl⟩ := List.mem_map.mp hy
    refine ⟨x, hx, ?_⟩
    split
    · next hclient => exact ⟨rfl, rfl, .inr ⟨rfl, _, hclient⟩⟩
    · exact ⟨rfl, rfl, .inl rfl⟩

end Excuses

end Pool

end ClipRender.Rendering
