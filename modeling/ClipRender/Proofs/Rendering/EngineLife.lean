import ClipRender.Proofs.Rendering.Bookkeeping

set_option autoImplicit false

/-!
Engines and the renders that have started them. A render lets go of an engine that runs only when an
abort makes it give up, and but for those engines there are never more than slots.
-/

namespace ClipRender.Rendering

/-- A render lets go of its engine while that runs. -/
structure Step.Abandons (step : Step) (r : Render) (pid : Nat) : Prop where
  had : (r.job.id, pid) ∈ step.before.active
  gone : (r.job.id, pid) ∉ step.after.pool.active
  running : step.after.pool.isRunning pid = true

def Pool.live (pool : Pool) : Nat := pool.processes.countP (·.isRunning)

namespace Scene

variable {past : List Step} {s u : Scene} {r : Render}

theorem failHolding_lets_go (failure : Failure) (hprocesses : u.pool.processes = s.pool.processes) :
    (u.failHolding r failure).pool.processes = s.pool.processes ∧
      ∀ pid, (r.job.id, pid) ∉ (u.failHolding r failure).pool.active := by
  obtain ⟨left, _⟩ := fail_eq u.release r failure
  have freed := Pool.released_eq u.pool
  rw [failHolding, left, release_pool, freed]
  refine ⟨hprocesses, fun pid hmem => ?_⟩
  have hother := (List.mem_filter.mp hmem).2
  exact of_decide_eq_true hother rfl

theorem giveUp_lets_go {x : Stopper} (htables : s.pool.Tables 0) (hr : r ∈ s.pool.renders)
    (hclient : x.client = .render r.task .timeout) (hrenders : u.pool.renders = s.pool.renders)
    (hprocesses : u.pool.processes = s.pool.processes) :
    (u.giveUp x).pool.processes = s.pool.processes ∧
      ∀ pid, (r.job.id, pid) ∉ (u.giveUp x).pool.active := by
  have hrender : u.pool.render? r.task = some r := by
    rw [Pool.render?, hrenders]
    exact htables.render?_eq hr
  rw [giveUp]
  simp only [hclient]
  split
  · next hnone =>
    have hsame : u.pool.render? r.task = none := hnone
    rw [hrender] at hsame
    contradiction
  · next q hq =>
    have hsame : u.pool.render? r.task = some q := hq
    rw [hrender] at hsame
    obtain rfl := Option.some.inj hsame
    exact failHolding_lets_go .aborted hprocesses

/-- Who gives up an engine leaves it as it is. -/
theorem lets_go {event : Event} (h : InOrder past s.world.spawned s.pool) (hr : r ∈ s.pool.renders)
    (hgives : GivesUp s.pool r.task event) :
    (s.handle event).pool.processes = s.pool.processes ∧
      ∀ pid, (r.job.id, pid) ∉ (s.handle event).pool.active := by
  have hrender := h.tables.render?_eq hr
  cases hgives with
  | shielded hq htask hphase =>
    obtain rfl := h.tables.eq_of_task hq hr htask
    rw [handle, abort, hrender]
    simp only [abortRender, hphase]
    exact failHolding_lets_go .aborted rfl
  | @killed q x hq htask hphase hx hclient hstage =>
    obtain rfl := h.tables.eq_of_task hq hr htask
    rw [handle, abort, hrender]
    simp only [abortRender, hphase, hx, abortStop, hstage]
    exact giveUp_lets_go h.tables hr hclient rfl rfl
  | @graced x number l hx hclient hstage hlookout hannounced hback hrecalled =>
    rw [handle, turn, h.links.stopper?_eq hx]
    simp only [stopperTurn, hstage, consult, hlookout, hannounced, hback, hrecalled, Bool.not_true,
      Bool.false_eq_true, if_false]
    exact giveUp_lets_go h.tables hr hclient rfl rfl

end Scene

namespace Pool

theorem isRunning_of_mem {spawned : Nat} {pool : Pool} (h : pool.Links spawned)
    {process : Engine.Process} (hmem : process ∈ pool.processes)
    (hrunning : process.isRunning = true) : pool.isRunning process.pid = true := by
  cases hfound : pool.process? process.pid with
  | none =>
    have hother := List.find?_eq_none.mp hfound process hmem
    exact absurd (decide_eq_true rfl) hother
  | some other =>
    have hother := List.mem_of_find?_eq_some hfound
    obtain rfl := List.inj_on_of_nodup_map h.pids hother hmem (process?_pid hfound)
    rw [isRunning_eq hfound, hrunning]

theorem mem_of_isRunning {pool : Pool} {pid : Nat} (h : pool.isRunning pid = true) :
    ∃ process ∈ pool.processes, process.pid = pid := by
  cases hfound : pool.process? pid with
  | none => simp [isRunning, hfound] at h
  | some process => exact ⟨process, List.mem_of_find?_eq_some hfound, process?_pid hfound⟩

/-- Where every engine that runs works for a job there are not more of them than jobs with an
engine. -/
theorem live_le_active {spawned : Nat} {pool : Pool} (h : pool.Links spawned)
    (howned : ∀ pid, pool.isRunning pid = true → ∃ id, (id, pid) ∈ pool.active) :
    pool.live ≤ pool.active.length := by
  have distinct : ((pool.processes.filter (·.isRunning)).map (·.pid)).Nodup :=
    h.pids.sublist (List.filter_sublist.map _)
  have contained : (pool.processes.filter (·.isRunning)).map (·.pid) ⊆ pool.active.map (·.2) := by
    intro pid hpid
    obtain ⟨process, hmem, rfl⟩ := List.mem_map.mp hpid
    obtain ⟨hprocess, hrunning⟩ := List.mem_filter.mp hmem
    obtain ⟨id, hactive⟩ := howned _ (isRunning_of_mem h hprocess hrunning)
    exact List.mem_map.mpr ⟨(id, process.pid), hactive, rfl⟩
  have few := (List.subperm_of_subset distinct contained).length_le
  rwa [List.length_map, List.length_map, ← List.countP_eq_length_filter] at few

end Pool

namespace Run

variable {settings : Settings} {steps past : List Step} {step : Step} {pool : Pool}
  {spawned pid : Nat} {r : Render}

/-- An abort that makes a render give up is the only reason to let go of an engine that runs. -/
theorem abandons_iff (h : Run settings (step :: past) pool spawned) (hr : r ∈ step.before.renders)
    (hactive : (r.job.id, pid) ∈ step.before.active) :
    step.Abandons r pid ↔
      GivesUp step.before r.task step.event ∧ step.before.isRunning pid = true := by
  obtain ⟨order, _⟩ := h.course
  constructor
  · intro habandons
    rcases h.fate hr with ⟨_, _, hparts⟩ | hstays
    · refine ⟨hparts.stopped.resolve_left fun hdown => ?_, ?_⟩
      · have still := habandons.running
        rw [hdown pid hactive] at still
        contradiction
      · exact hparts.running pid (order.links.activeKnown _ hactive) habandons.running
    · exact absurd (hstays.active pid hactive) habandons.gone
  · rintro ⟨hgives, hrunning⟩
    have hfound : GivesUp step.found.pool r.task step.event := hgives.elsewhere rfl rfl rfl
    obtain ⟨hprocesses, hgone⟩ := Scene.lets_go order hr hfound
    refine ⟨hactive, hgone pid, ?_⟩
    rw [step.after_eq, Pool.isRunning, Pool.process?, hprocesses]
    exact hrunning

/-- An engine that runs works for a job, or its render has let go of it. -/
theorem owned (h : Run settings steps pool spawned) (hrunning : pool.isRunning pid = true) :
    (∃ id, (id, pid) ∈ pool.active) ∨
      ∃ step ∈ steps, ∃ r ∈ step.before.renders, step.Abandons r pid := by
  induction steps generalizing pool spawned with
  | nil =>
    cases h with
    | start hnew =>
      obtain ⟨_, rfl⟩ := Pool.new_eq hnew
      contradiction
  | cons step past ih =>
    obtain ⟨found, _⟩ := h.course
    have links := h.inOrder.1.links
    obtain ⟨_, hrun, _, rfl, rfl, _⟩ := h.last
    obtain ⟨process, hprocess, rfl⟩ := Pool.mem_of_isRunning hrunning
    have known := links.pidsKnown process hprocess
    have old : step.before.isRunning process.pid = true →
        (∃ id, (id, process.pid) ∈ step.after.pool.active) ∨
          ∃ other ∈ step :: past, ∃ r ∈ other.before.renders, other.Abandons r process.pid := by
      intro hbefore
      rcases ih hrun hbefore with ⟨id, hactive⟩ | ⟨other, hother, hleft⟩
      · obtain ⟨r, hr, rfl, _⟩ := found.tables.active _ hactive
        by_cases hgone : (r.job.id, process.pid) ∈ step.after.pool.active
        · exact .inl ⟨_, hgone⟩
        · exact .inr ⟨step, List.mem_cons_self, r, hr, hactive, hgone, hrunning⟩
      · exact .inr ⟨other, List.mem_cons_of_mem step hother, hleft⟩
    rcases h.splits with hcarries | ⟨_, _, _, _, hparts⟩
    · rcases Nat.lt_or_ge step.world.spawned process.pid with hnew | hold
      · obtain ⟨started, hactive, _, hstarted⟩ := hcarries.active
        obtain ⟨id, hmem⟩ := hstarted process.pid hnew known
        exact .inl ⟨id, by rw [hactive]; exact List.mem_append_left _ hmem⟩
      · exact old (hcarries.running _ hold hrunning)
    · rw [hparts.spawned] at known
      exact old (hparts.running _ known hrunning)

/-- The time of a render is up, and while its engine has its grace the render is aborted. -/
def abortedInGrace : List Event :=
  [.order 1 (Sample.order "a"), .look 1, .alarm 1, .turn (.render 1), .look 1, .announce 1,
    .turn (.render 1), .look 3, .abort 1, .look 3, .announce 3, .turn (.stopper 2),
    .order 2 (Sample.order "b")]

end Run

end ClipRender.Rendering
