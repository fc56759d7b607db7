import ClipRender.Proofs.Rendering.Course

set_option autoImplicit false

/-!
How a render leaves the pool: what the operations that end one make of the slots, the tables and the
files, and how such an end stands within the course of an event.
-/

namespace ClipRender.Rendering

namespace Pool

variable {past : List Step} {surplus : Nat} {pool : Pool}

theorem settled_setStatus {failure : Failure} (h : failure.Planned) {task : Nat}
    (pool : Pool) (status : JobStatus) :
    (pool.setStatus task status).settled task (.failed failure)
      = pool.settled task (.failed failure) := by
  have again : ∀ other, ((pool.setStatus task status).setStatus task other).statuses
      = (pool.setStatus task other).statuses := by
    intro other
    simp only [setStatus, List.map_map]
    apply List.map_congr_left
    intro entry _
    by_cases hsame : entry.1 = task <;> simp [hsame]
  cases h with
  | reported => exact again _
  | aborted => exact again _

theorem settled_eq {p q : Pool} (h : p.statuses = q.statuses) {task : Nat} {outcome : Outcome} :
    p.settled task outcome = q.settled task outcome := by
  rw [settled, settled]
  split
  · rw [setStatus, setStatus, h]
  · exact h

theorem contains_iff {ids : List String} {id : String} : ids.contains id = true ↔ id ∈ ids := by
  simp

theorem render?_mem {task : Nat} {r : Render} (h : pool.render? task = some r) :
    r ∈ pool.renders ∧ r.task = task :=
  ⟨List.mem_of_find?_eq_some h, by simpa using List.find?_some h⟩

theorem stopper?_mem {number : Nat} {s : Stopper} (h : pool.stopper? number = some s) :
    s ∈ pool.stoppers ∧ s.number = number :=
  ⟨List.mem_of_find?_eq_some h, by simpa using List.find?_some h⟩

theorem Links.stopper?_eq {spawned : Nat} (h : pool.Links spawned) {x : Stopper}
    (hx : x ∈ pool.stoppers) : pool.stopper? x.number = some x := by
  cases hfound : pool.stopper? x.number with
  | none =>
    have hother := List.find?_eq_none.mp hfound x hx
    exact absurd (decide_eq_true rfl) hother
  | some y =>
    obtain ⟨hy, hnumber⟩ := stopper?_mem hfound
    rw [h.eq_of_stopper hx hy hnumber]

theorem Tables.engine_eq (h : pool.Tables surplus) {id : String} {first second : Nat}
    (hfirst : (id, first) ∈ pool.active) (hsecond : (id, second) ∈ pool.active) :
    first = second :=
  (Prod.mk.inj (List.inj_on_of_nodup_map h.activeIds hfirst hsecond rfl)).2

end Pool

namespace Goes

variable {past : List Step} {s t : Scene}

theorem stirs (h : Stirs past s t) : Goes past s t := .single (.stirs h)

theorem moves (h : Pool.Moves past s.pool t.pool) (hworld : t.world = s.world) : Goes past s t :=
  .single (.moves h (by rw [hworld]) (by rw [hworld]))

end Goes

namespace Scene

theorem spawned_discardPart (world : World) (part : Files.Path) :
    (discardPart world part).spawned = world.spawned := by
  rw [discardPart]
  split
  · split <;> rfl
  · rfl

theorem files_discardPart {world other : World} (h : world.files = other.files)
    (part : Files.Path) : (discardPart world part).files = (discardPart other part).files := by
  rw [discardPart, discardPart, h]
  split
  · split
    · rfl
    · exact h
  · exact h

end Scene

theorem Fails.earlier {s t u : Scene} {r : Render} {outcome : Outcome} (h : Fails t r outcome u)
    (hfiles : t.world.files = s.world.files) : Fails s r outcome u :=
  ⟨h.planned, h.files.trans (Scene.files_discardPart hfiles r.part)⟩

namespace Closes

variable {past : List Step} {gives : Nat → Prop} {concludes : Render → Scene → Prop}
  {s t u : Scene}

theorem after (h : Goes past s t) (hfiles : t.world.files = s.world.files)
    (hspawned : t.world.spawned = s.world.spawned) (k : Closes past gives concludes t u) :
    Closes past gives concludes s u := by
  cases k with
  | goes hgoes => exact .goes (h.trans hgoes)
  | answers hgoes hx hclient hpool hworld houtcome =>
    exact .answers (h.trans hgoes) hx hclient hpool hworld houtcome
  | ends hgoes hkept hsame hr hverdict hleaves hstopped hafter hworld hway =>
    exact .ends (h.trans hgoes) (hkept.trans hfiles) (hsame.trans hspawned) hr hverdict hleaves
      hstopped hafter hworld (hway.imp_left fun hfails => hfails.earlier hfiles)

theorem stirs (h : Stirs past s t) (k : Closes past gives concludes t u) :
    Closes past gives concludes s u :=
  after (Goes.stirs h) h.files h.spawned k

theorem ending {r : Render} {outcome : Outcome} (hr : r ∈ s.pool.renders)
    (hverdict : Verdict past s.pool r outcome) (hleaves : Leaves s r outcome t)
    (hstopped : (∀ pid, (r.job.id, pid) ∈ s.pool.active → s.pool.isRunning pid = false) ∨ gives r.task)
    (hfails : Fails s r outcome t) : Closes past gives concludes s t :=
  .ends .refl rfl rfl hr hverdict hleaves hstopped .refl rfl (.inl hfails)

end Closes

namespace Scene

variable {past : List Step} {gives : Nat → Prop} {s : Scene}

theorem grant_pool (s : Scene) : s.grant.pool = s.pool.granted := by
  rw [grant, Pool.granted]
  cases s.pool.renders.find? (·.phase = .queued) <;> rfl

theorem grant_world (s : Scene) : s.grant.world = s.world := by
  rw [grant]
  cases s.pool.renders.find? (·.phase = .queued) <;> rfl

theorem release_pool (s : Scene) : s.release.pool = s.pool.released := grant_pool _

theorem release_world (s : Scene) : s.release.world = s.world := grant_world _

theorem statusAfter_pool (s : Scene) (task : Nat) (failure : Failure) :
    (s.statusAfter task failure).pool
      = { s.pool with statuses := s.pool.settled task (.failed failure) } := by
  cases failure <;> rfl

theorem statusAfter_world (s : Scene) (task : Nat) (failure : Failure) :
    (s.statusAfter task failure).world = s.world := by
  cases failure <;> rfl

theorem ended_released (pool : Pool) : pool.released.ended = pool.ended := by
  rw [Pool.released, Pool.granted]
  cases ({ pool with free := pool.free + 1 } : Pool).renders.find? (·.phase = .queued) <;> rfl

theorem statuses_released (pool : Pool) : pool.released.statuses = pool.statuses := by
  rw [Pool.released, Pool.granted]
  cases ({ pool with free := pool.free + 1 } : Pool).renders.find? (·.phase = .queued) <;> rfl

theorem settings_released (pool : Pool) : pool.released.settings = pool.settings := by
  rw [Pool.released, Pool.granted]
  cases ({ pool with free := pool.free + 1 } : Pool).renders.find? (·.phase = .queued) <;> rfl

theorem fail_eq (s : Scene) (r : Render) (failure : Failure) :
    (s.fail r failure).pool = { s.pool.withdrawn r with
      statuses := s.pool.settled r.task (.failed failure)
      ended := s.pool.ended ++ [(r.task, .failed failure)] } ∧
    (s.fail r failure).world = discardPart s.world r.part := by
  have hpool := statusAfter_pool s r.task failure
  have hworld := statusAfter_world s r.task failure
  simp only [fail, leave, onPool, Pool.finish, Pool.withdrawn]
  rw [hpool, hworld]
  exact ⟨rfl, rfl⟩

theorem fail_leaves {r : Render} (hwaits : r.holdsSlot = false) (failure : Failure) :
    Leaves s r (.failed failure) (s.fail r failure) := by
  obtain ⟨hpool, hworld⟩ := fail_eq s r failure
  refine ⟨?_, ?_, .inl ?_⟩
  · rw [hwaits]
    exact hpool
  · rw [hworld, spawned_discardPart]
  · rw [hworld]

theorem fail_fails {r : Render} {failure : Failure} (hplanned : failure.Planned) :
    Fails s r (.failed failure) (s.fail r failure) :=
  ⟨⟨failure, hplanned, rfl⟩, by rw [(fail_eq s r failure).2]⟩

theorem failHolding_leaves {r : Render} (hholds : r.holdsSlot = true) (failure : Failure) :
    Leaves s r (.failed failure) (s.failHolding r failure) := by
  obtain ⟨hpool, hworld⟩ := fail_eq s.release r failure
  rw [release_pool, ended_released, Pool.settled_eq (statuses_released s.pool)] at hpool
  rw [release_world] at hworld
  refine ⟨?_, ?_, .inl ?_⟩
  · rw [hholds]
    exact hpool
  · rw [failHolding, hworld, spawned_discardPart]
  · rw [failHolding, hworld]

theorem failHolding_fails {r : Render} {failure : Failure} (hplanned : failure.Planned) :
    Fails s r (.failed failure) (s.failHolding r failure) :=
  ⟨⟨failure, hplanned, rfl⟩, by rw [failHolding, (fail_eq s.release r failure).2, release_world]⟩

end Scene

end ClipRender.Rendering
