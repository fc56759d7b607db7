import ClipRender.Proofs.Rendering.Reach

set_option autoImplicit false

/-!
Lookouts in the service of stoppers. As long as the engine of a stopper has its grace the lookout of
the stopper is there, and once it is recalled it is on its way.
-/

namespace ClipRender.Rendering

/-- There is a lookout of the number that can come back to the stopper. -/
def Pool.Awaits (pool : Pool) (stopper number : Nat) : Prop :=
  ∃ l ∈ pool.lookouts, l.number = number ∧ l.owner = .stopper stopper ∧ ¬ l.Stuck

def Pool.Tended (pool : Pool) : Prop :=
  ∀ x ∈ pool.stoppers, ∀ number, x.stage = .grace number → pool.Awaits x.number number

/-- What becomes of lookouts and of stoppers in their grace, unless these have their turn. -/
structure Tends (past : List Step) (s t : Scene) : Prop where
  lookouts : ∀ k ∈ s.pool.lookouts, TurnOf past k.owner ∨ k.StaysIn t.pool.lookouts
  grace : ∀ y ∈ t.pool.stoppers, ∀ number, y.stage = .grace number →
    TurnOf past (.stopper y.number) ∨
      (∃ x ∈ s.pool.stoppers, x.number = y.number ∧ x.stage = y.stage) ∨
      t.pool.Awaits y.number number

namespace Tends

variable {past : List Step} {s t u : Scene}

theorem of_pool (hlookouts : ∀ k ∈ s.pool.lookouts, k ∈ t.pool.lookouts)
    (hstoppers : ∀ y ∈ t.pool.stoppers, ∀ number, y.stage = .grace number →
      ∃ x ∈ s.pool.stoppers, x.number = y.number ∧ x.stage = y.stage) : Tends past s t where
  lookouts k hk := .inr (.of_mem (hlookouts k hk))
  grace y hy number hstage := .inr (.inl (hstoppers y hy number hstage))

theorem of_same (hlookouts : t.pool.lookouts = s.pool.lookouts)
    (hstoppers : t.pool.stoppers = s.pool.stoppers) : Tends past s t :=
  of_pool (fun _ hk => hlookouts ▸ hk) fun y hy _ _ => ⟨y, hstoppers ▸ hy, rfl, rfl⟩

theorem refl (s : Scene) : Tends past s s := of_same rfl rfl

theorem trans (h : Tends past s t) (k : Tends past t u) : Tends past s u where
  lookouts := by
    intro l hl
    rcases h.lookouts l hl with hturn | ⟨m, hm, hnumber, howner, hstuck⟩
    · exact .inl hturn
    · rcases k.lookouts m hm with hturn | ⟨n, hn, hlast, hsame, hstill⟩
      · exact .inl (howner ▸ hturn)
      · exact .inr ⟨n, hn, hlast.trans hnumber, hsame.trans howner, fun hn => hstuck (hstill hn)⟩
  grace := by
    intro z hz number hstage
    rcases k.grace z hz number hstage with hturn | ⟨y, hy, hnumber, hsame⟩ | hawaits
    · exact .inl hturn
    · rcases h.grace y hy number (hsame.trans hstage) with hturn | ⟨x, hx, hfirst, hold⟩ | hawaits
      · exact .inl (hnumber ▸ hturn)
      · exact .inr (.inl ⟨x, hx, hfirst.trans hnumber, hold.trans hsame⟩)
      · obtain ⟨l, hl, hlookout, howner, hfree⟩ := hawaits
        rw [hnumber] at howner
        rcases k.lookouts l hl with hturn | ⟨m, hm, hlast, hown, hstuck⟩
        · exact .inl (howner ▸ hturn)
        · exact .inr (.inr ⟨m, hm, hlast.trans hlookout, hown.trans howner,
            fun hm => hfree (hstuck hm)⟩)
    · exact .inr (.inr hawaits)

theorem stirs (h : Stirs past s t) : Tends past s t where
  lookouts := h.kept
  grace y hy _ _ := .inr (.inl ⟨y, h.stoppers ▸ hy, rfl, rfl⟩)

theorem moves (h : Pool.Moves past s.pool t.pool) : Tends past s t := by
  obtain ⟨later, world, postings⟩ := t
  have more : ∀ {new : Lookout}, ∀ k ∈ s.pool.lookouts, k ∈ s.pool.lookouts ++ [new] :=
    fun k hk => List.mem_append_left _ hk
  have called : ∀ {new : Stopper}, new.stage = .called → ∀ y ∈ s.pool.stoppers ++ [new],
      ∀ number, y.stage = .grace number →
        ∃ x ∈ s.pool.stoppers, x.number = y.number ∧ x.stage = y.stage := by
    intro new hnew y hy number hstage
    rcases List.mem_append.mp hy with hold | hlast
    · exact ⟨y, hold, rfl, rfl⟩
    · obtain rfl := List.mem_singleton.mp hlast
      rw [hnew] at hstage
      contradiction
  cases h with
  | granted => exact of_same rfl rfl
  | begun => exact of_same rfl rfl
  | watched => exact of_pool more fun y hy _ _ => ⟨y, hy, rfl, rfl⟩
  | stopped => exact of_pool (fun _ hk => hk) (called rfl)
  | shielded => exact of_pool (fun _ hk => hk) (called rfl)
  | assisted => exact of_pool (fun _ hk => hk) (called rfl)
  | @graced x l hx hpid hfresh howner =>
    refine ⟨fun k hk => .inr (.of_mem (more k hk)), fun y hy number hstage => ?_⟩
    obtain ⟨z, hz, rfl | ⟨hnumber, rfl⟩⟩ := Pool.mem_setStage hy
    · exact .inr (.inl ⟨y, hz, rfl, rfl⟩)
    · obtain rfl := Stage.grace.inj hstage
      have ready := Lookout.not_stuck_of_stage (.inl hfresh.stage)
      refine .inr (.inr ⟨l, List.mem_append_right _ List.mem_cons_self, rfl, ?_, ready⟩)
      rw [howner, ← hnumber]
  | @killed x hx =>
    refine of_pool (fun _ hk => hk) fun y hy number hstage => ?_
    obtain ⟨z, hz, rfl | ⟨_, rfl⟩⟩ := Pool.mem_setStage hy
    · exact ⟨y, hz, rfl, rfl⟩
    · contradiction
  | dropped => exact of_pool (fun _ hk => hk) fun y hy _ _ => ⟨y, (List.mem_filter.mp hy).1, rfl, rfl⟩
  | abandoned =>
    refine of_pool (fun _ hk => hk) fun y hy _ _ => ?_
    obtain ⟨x, hx, rfl⟩ := List.mem_map.mp hy
    refine ⟨x, hx, ?_⟩
    split <;> exact ⟨rfl, rfl⟩

theorem goes (h : Goes past s t) : Tends past s t := by
  induction h with
  | refl => exact refl s
  | tail _ hadvances ih =>
    refine ih.trans ?_
    cases hadvances with
    | stirs hstirs => exact stirs hstirs
    | moves hmoves => exact moves hmoves
    | spawns _ _ _ hpool => exact of_same (by rw [hpool]; rfl) (by rw [hpool]; rfl)

theorem closes {gives : Nat → Prop} {concludes : Render → Scene → Prop}
    (h : Closes past gives concludes s t) : Tends past s t := by
  cases h with
  | goes hgoes => exact goes hgoes
  | answers hgoes _ _ hpool =>
    refine (goes hgoes).trans (of_pool ?_ ?_)
    · rw [hpool]
      exact fun _ hk => hk
    · rw [hpool]
      exact fun y hy _ _ => ⟨y, (List.mem_filter.mp hy).1, rfl, rfl⟩
  | @ends before after _ _ _ hgoes _ _ _ _ hleaves _ hafter _ _ =>
    have left := hleaves.pool_eq
    have leaves : Tends past before after := of_same (by rw [left]; rfl) (by rw [left]; rfl)
    exact (goes hgoes).trans (leaves.trans (goes hafter))

theorem course {event : Event} (h : Course past s event t) : Tends past s t := by
  have flag : ∀ jobId, Tends past s (s.onPool (·.flag jobId)) := by
    intro jobId
    have same := Pool.flag_eq s.pool jobId
    exact of_same (by rw [Scene.onPool, same]) (by rw [Scene.onPool, same])
  cases h with
  | quiet _ hcloses => exact closes hcloses
  | flags _ hgoes => exact (flag _).trans (goes hgoes)
  | answersAtOnce => exact (flag _).trans (of_same rfl rfl)
  | notFound => exact of_same rfl rfl
  | refused hpool => exact of_same (by rw [hpool]) (by rw [hpool])
  | joins _ _ _ hpool _ _ _ _ hgoes =>
    exact (of_same (by rw [hpool]; rfl) (by rw [hpool]; rfl)).trans (goes hgoes)

theorem awaits (h : Tends past s t) (htended : s.pool.Tended) {y : Stopper}
    (hy : y ∈ t.pool.stoppers) {number : Nat} (hstage : y.stage = .grace number) :
    TurnOf past (.stopper y.number) ∨ t.pool.Awaits y.number number := by
  rcases h.grace y hy number hstage with hturn | ⟨x, hx, hnumber, hsame⟩ | hawaits
  · exact .inl hturn
  · obtain ⟨l, hl, hlookout, howner, hfree⟩ := htended x hx number (hsame.trans hstage)
    rw [hnumber] at howner
    rcases h.lookouts l hl with hturn | ⟨m, hm, hlast, hown, hstuck⟩
    · exact .inl (howner ▸ hturn)
    · exact .inr ⟨m, hm, hlast.trans hlookout, hown.trans howner, fun hm => hfree (hstuck hm)⟩
  · exact .inr hawaits

end Tends

def Pool.Past (pool : Pool) (stopper : Nat) : Prop :=
  ∀ y ∈ pool.stoppers, y.number = stopper → ∀ number, y.stage ≠ .grace number

namespace Scene

variable {past : List Step} {s : Scene} {x : Stopper}

theorem stoppers_watch (s : Scene) (r : Render) (pid : Nat) :
    (s.watch r pid).pool.stoppers = s.pool.stoppers := by
  rw [watch]
  dsimp only
  split <;> rfl

theorem stoppers_failHolding (s : Scene) (r : Render) (failure : Failure) :
    (s.failHolding r failure).pool.stoppers = s.pool.stoppers := by
  obtain ⟨left, _⟩ := fail_eq s.release r failure
  have freed := Pool.released_eq s.pool
  rw [failHolding, left, release_pool, freed]
  rfl

theorem dropped_past (s : Scene) (x : Stopper) : (s.pool.dropStopper x.number).Past x.number :=
  fun _ hy hnumber => absurd hnumber (of_decide_eq_true (List.mem_filter.mp hy).2)

theorem finishStop_past (s : Scene) (x : Stopper) : (s.finishStop x).pool.Past x.number := by
  have gone := dropped_past (s.send x.pid .kill) x
  rw [finishStop]
  cases x.client with
  | render task reason =>
    dsimp only
    split
    · cases reason with
      | cancelled =>
        rw [goOn, Pool.Past, stoppers_watch]
        exact gone
      | timeout =>
        rw [goOn, timeOut, Pool.Past, stoppers_failHolding]
        exact gone
    · exact gone
  | _ => exact gone

theorem killStopped_past (s : Scene) (x : Stopper) : (s.killStopped x).pool.Past x.number := by
  rw [killStopped]
  split
  · intro y hy hnumber
    obtain ⟨z, _, rfl⟩ := List.mem_map.mp hy
    split
    · simp
    · next hother =>
      rw [if_neg hother] at hnumber
      exact absurd hnumber hother
  · exact finishStop_past _ x

theorem giveUp_past (s : Scene) (x : Stopper) : (s.giveUp x).pool.Past x.number := by
  have gone := dropped_past s x
  rw [giveUp]
  cases x.client with
  | render task reason =>
    dsimp only
    split
    · exact gone
    · cases reason with
      | cancelled =>
        intro y hy hnumber
        rcases List.mem_append.mp hy with hold | hnew
        · exact gone y hold hnumber
        · obtain rfl := List.mem_singleton.mp hnew
          simp
      | timeout =>
        dsimp only
        rw [Pool.Past, stoppers_failHolding]
        exact gone
  | _ => exact gone

/-- A stopper that is in its grace after its turn has its lookout then. -/
theorem stopperTurn_tended (h : InOrder past s.world.spawned s.pool) (htended : s.pool.Tended)
    (hx : x ∈ s.pool.stoppers) {y : Stopper} (hy : y ∈ (s.stopperTurn x).pool.stoppers)
    (hnumber : y.number = x.number) {number : Nat} (hgrace : y.stage = .grace number) :
    (s.stopperTurn x).pool.Awaits y.number number := by
  -- What follows holds of any past, so of one in which nobody has a turn.
  let idle : Step := ⟨s.pool, s.world, .stopped 0⟩
  have order : InOrder (idle :: past) s.world.spawned s.pool := h.later idle (Nat.le_refl _)
  have quiet : ∀ party, ¬ TurnOf (idle :: past) party := by
    rintro party ⟨step, earlier, hsame, hevent⟩
    obtain rfl := (List.cons.inj hsame).1
    contradiction
  have waits : ∀ t : Scene, Tends (idle :: past) s t → y ∈ t.pool.stoppers →
      t.pool.Awaits y.number number :=
    fun t htends hmem => (htends.awaits htended hmem hgrace).resolve_left (quiet _)
  rw [stopperTurn] at hy ⊢
  cases hstage : x.stage with
  | called =>
    rw [hstage] at hy
    have closes : Closes (idle :: past) (fun _ => False) (fun _ _ => False) s (s.beginStop x) :=
      beginStop_closes order hx
    exact waits _ (.closes closes) hy
  | killed =>
    rw [hstage] at hy
    dsimp only at hy ⊢
    by_cases hrunning : s.pool.isRunning x.pid = true
    · rw [if_pos hrunning] at hy ⊢
      exact waits s (.refl s) hy
    · rw [if_neg hrunning] at hy ⊢
      exact absurd hgrace (finishStop_past s x y hy hnumber number)
  | grace awaited =>
    rw [hstage] at hy
    dsimp only at hy ⊢
    rcases hconsult : s.consult awaited with ⟨t, _ | _ | _ | _⟩
    all_goals
      rw [hconsult] at hy
      dsimp only at hy ⊢
    · exact waits t (.stirs (.consult_none order.links.listening hconsult)) hy
    · exact absurd hgrace (finishStop_past t x y hy hnumber number)
    · exact absurd hgrace (killStopped_past t x y hy hnumber number)
    · exact absurd hgrace (giveUp_past t x y hy hnumber number)

end Scene

theorem Step.tended {past : List Step} {spawned : Nat} (step : Step)
    (h : InOrder past spawned step.before) (hle : spawned ≤ step.world.spawned)
    (hfresh : ∀ task ∈ step.event.caller?, ∀ other ∈ past, other.event.caller? ≠ some task)
    (htended : step.before.Tended) : step.after.pool.Tended := by
  obtain ⟨found, hcourse⟩ := Run.next_course h hle hfresh
  have before : step.found.pool.Tended := htended
  intro y hy number hgrace
  rcases (Tends.course hcourse).awaits before hy hgrace with ⟨_, _, hsame, hevent⟩ | hawaits
  · obtain rfl := (List.cons.inj hsame).1
    have own : step.after = step.found.turn (.stopper y.number) := by
      rw [step.after_eq, hevent, Scene.handle]
    rw [own, Scene.turn] at hy ⊢
    cases hfound : step.found.pool.stopper? y.number with
    | none =>
      rw [hfound] at hy
      have hother := List.find?_eq_none.mp hfound y hy
      exact absurd (decide_eq_true rfl) hother
    | some x =>
      rw [hfound] at hy
      obtain ⟨hx, hnumber⟩ := Pool.stopper?_mem hfound
      exact Scene.stopperTurn_tended found before hx hy hnumber.symm hgrace
  · exact hawaits

/-- In every run the stoppers in their grace have their lookouts. -/
theorem Run.tended {settings : Settings} {steps : List Step} {pool : Pool} {spawned : Nat}
    (h : Run settings steps pool spawned) : pool.Tended := by
  induction h with
  | start hnew =>
    obtain ⟨_, rfl⟩ := Pool.new_eq hnew
    exact fun _ hx => absurd hx List.not_mem_nil
  | @next past pool spawned step hrun hbefore hle hfresh ih =>
    subst hbefore
    exact step.tended hrun.inOrder.1 hle hfresh ih

end ClipRender.Rendering
