import ClipRender.Proofs.Rendering.Tending

set_option autoImplicit false

/-!
A call that cancels is never stuck. Wherever its stopper stands, there are turns, an alarm or the end
of the engine still to come that bring the answer.
-/

namespace ClipRender.Rendering

/-- Neither a call nor an abort, but something that the pool has asked for or that an engine does. -/
structure Event.IsOwn (event : Event) : Prop where
  caller : event.caller? = none
  abort : ∀ task, event ≠ .abort task

/-- In a world that only the pool changes own events can come with which the task ends. -/
inductive Answerable (task : Nat) : Pool → World → Prop
  | now {pool : Pool} {world : World} (event : Event) {outcome : Outcome} (hown : event.IsOwn)
    (hends : Step.Ends ⟨pool, world, event⟩ task outcome) : Answerable task pool world
  | later {pool : Pool} {world : World} (event : Event) (hown : event.IsOwn)
    (h : Answerable task (Step.after ⟨pool, world, event⟩).pool
      (Step.after ⟨pool, world, event⟩).world) : Answerable task pool world

/-- A pool as runs leave it, in a world that may follow. -/
structure Pool.Sound (pool : Pool) (world : World) : Prop where
  order : ∃ past, InOrder past world.spawned pool
  tended : pool.Tended

namespace Pool

variable {pool : Pool} {world : World} {event : Event}

theorem Sound.next (h : pool.Sound world) (hown : event.IsOwn) :
    (Step.after ⟨pool, world, event⟩).pool.Sound (Step.after ⟨pool, world, event⟩).world := by
  obtain ⟨past, order⟩ := h.order
  have fresh : ∀ task ∈ event.caller?, ∀ other ∈ past, other.event.caller? ≠ some task := by
    rw [hown.caller]
    simp
  let step : Step := ⟨pool, world, event⟩
  have before : InOrder past step.world.spawned step.before := order
  obtain ⟨found, hcourse⟩ := Run.next_course before (Nat.le_refl _) fresh
  exact ⟨⟨_, found.course hcourse⟩, step.tended before (Nat.le_refl _) fresh h.tended⟩

theorem Listening.lookout?_eq (h : pool.Listening) {l : Lookout} (hl : l ∈ pool.lookouts) :
    pool.lookout? l.number = some l := by
  cases hfound : pool.lookout? l.number with
  | none =>
    have hother := List.find?_eq_none.mp hfound l hl
    exact absurd (decide_eq_true rfl) hother
  | some k =>
    obtain ⟨hk, hnumber⟩ := lookout?_mem hfound
    rw [h.eq_of_number hk hl hnumber]

theorem mem_setLookout_self {k l : Lookout} (hk : k ∈ pool.lookouts) (hnumber : k.number = l.number) :
    l ∈ (pool.setLookout l).lookouts :=
  List.mem_map.mpr ⟨k, hk, if_pos hnumber⟩

end Pool

namespace Scene

variable {s : Scene} {x : Stopper} {task : Nat}

theorem finishStop_ends (hclient : x.client = .call task) :
    (task, .cancelled true) ∈ (s.finishStop x).pool.ended := by
  rw [finishStop]
  simp only [hclient]
  exact List.mem_append_right _ List.mem_cons_self

theorem giveUp_ends (hclient : x.client = .call task) :
    (task, .failed .aborted) ∈ (s.giveUp x).pool.ended := by
  rw [giveUp]
  simp only [hclient]
  exact List.mem_append_right _ List.mem_cons_self

theorem tellAll_pool (s : Scene) (listeners : List Listener) :
    (listeners.foldl tell s).pool
      = { s.pool with lookouts := (listeners.foldl tell s).pool.lookouts } := by
  induction listeners generalizing s with
  | nil => rfl
  | cons listener rest ih =>
    rw [List.foldl_cons, ih]
    cases listener with
    | stopper number => rfl
    | lookout number =>
      rw [tell]
      split <;> rfl

theorem stoppers_exit (s : Scene) (pid : Nat) (code : Int) :
    (s.exit pid code).pool.stoppers = s.pool.stoppers := by
  rw [exit]
  split
  · rfl
  · split
    · rfl
    · rw [tellAll_pool]
      rfl

theorem stoppers_send (s : Scene) (pid : Nat) (signal : Engine.Signal) :
    (s.send pid signal).pool.stoppers = s.pool.stoppers := by
  rw [send]
  split
  · rfl
  · dsimp only
    split
    · rfl
    · exact stoppers_exit _ _ _
    · rfl

/-- A lookout that is not back is recalled and has its turn, wherever it stands. -/
theorem callBack_pool (s : Scene) {l : Lookout} (cause : Recall) (hout : l.stage ≠ .back) :
    (s.callBack l cause).pool.lookouts = (s.pool.setLookout
        { l with stage := .called, recalled := some cause, announced := false }).lookouts ∧
      (s.callBack l cause).pool.stoppers = s.pool.stoppers := by
  obtain ⟨number, pid, toReportEnd, owner, stage, recalled, announced⟩ := l
  cases stage with
  | back => exact absurd rfl hout
  | _ => exact ⟨rfl, rfl⟩

theorem exit_down (s : Scene) (pid : Nat) (code : Int) :
    (s.exit pid code).pool.isRunning pid = false := by
  rw [exit]
  cases hprocess : s.pool.process? pid with
  | none => simp [Pool.isRunning, hprocess]
  | some process =>
    dsimp only
    split
    · next hdown => simpa [Pool.isRunning, hprocess] using hdown
    · next hrunning =>
      have hsame : (process.ended code).pid = process.pid := by
        rw [Engine.Process.ended]
        split <;> rfl
      have hended : (process.ended code).isRunning = false := by
        have hrun : process.isRunning = true := by simpa using hrunning
        rw [Engine.Process.ended, if_pos hrun]
        rfl
      have found := Pool.process?_setProcess s.pool (process.ended code) pid
      rw [hprocess, hsame, Option.map_some, if_pos rfl] at found
      rw [Pool.isRunning, Pool.process?, tellAll_pool]
      change ((s.pool.setProcess (process.ended code)).process? pid).any _ = false
      rw [found]
      exact hended

end Scene

namespace Pool.Sound

variable {pool : Pool} {world : World} {event : Event} {x : Stopper} {l : Lookout} {task : Nat}

def found (pool : Pool) (world : World) : Scene := ⟨{ pool with ended := [] }, world, []⟩

theorem after_turn (h : pool.Sound world) (hx : x ∈ pool.stoppers) :
    Step.after ⟨pool, world, .turn (.stopper x.number)⟩ = (found pool world).stopperTurn x := by
  obtain ⟨past, order⟩ := h.order
  have hfound : (found pool world).pool.stopper? x.number = some x := order.links.stopper?_eq hx
  change (found pool world).turn (.stopper x.number) = _
  rw [Scene.turn, hfound]

theorem lookout?_eq (h : pool.Sound world) (hl : l ∈ pool.lookouts) :
    (found pool world).pool.lookout? l.number = some l := by
  obtain ⟨past, order⟩ := h.order
  exact order.links.listening.lookout?_eq hl

theorem own_turn (number : Nat) : (Event.turn (.stopper number)).IsOwn := ⟨rfl, by simp⟩

section Call

variable (h : pool.Sound world) (hx : x ∈ pool.stoppers) (hclient : x.client = .call task)

include h hx hclient

omit hclient in
theorem answerable_now {s : Scene} {outcome : Outcome}
    (hturn : (found pool world).stopperTurn x = s) (hended : (task, outcome) ∈ s.pool.ended) :
    Answerable task pool world := by
  refine .now (.turn (.stopper x.number)) (own_turn x.number) (?_ : Step.Ends _ task outcome)
  rw [Step.Ends, h.after_turn hx, hturn]
  exact hended

theorem answerable_killed (hstage : x.stage = .killed) : Answerable task pool world := by
  have ended : ∀ {p : Pool} {w : World}, p.Sound w → x ∈ p.stoppers → p.isRunning x.pid = false →
      Answerable task p w := by
    intro p w hsound hmem hdown
    have down : (found p w).pool.isRunning x.pid = false := hdown
    have turned : (found p w).stopperTurn x = (found p w).finishStop x := by
      simp only [Scene.stopperTurn, hstage, down, Bool.false_eq_true, if_false]
    exact hsound.answerable_now hmem turned (Scene.finishStop_ends hclient)
  cases hrunning : pool.isRunning x.pid with
  | false => exact ended h hx hrunning
  | true =>
    have own : (Event.exited x.pid 0).IsOwn := ⟨rfl, by simp⟩
    have still : x ∈ ((found pool world).exit x.pid 0).pool.stoppers := by
      rw [Scene.stoppers_exit]
      exact hx
    exact .later _ own (ended (h.next own) still (Scene.exit_down _ _ _))

variable (hl : l ∈ pool.lookouts) (hstage : x.stage = .grace l.number)

include hl hstage

theorem answerable_announced (hback : l.stage = .back) (hannounced : l.announced = true) :
    Answerable task pool world := by
  have hlookout := h.lookout?_eq hl
  have turned : (found pool world).stopperTurn x = match l.recalled with
      | none => ((found pool world).dismiss l).finishStop x
      | some .timeUp => ((found pool world).dismiss l).killStopped x
      | some .aborted => ((found pool world).dismiss l).giveUp x := by
    simp only [Scene.stopperTurn, hstage, Scene.consult, hlookout, hannounced, hback, Bool.not_true,
      Bool.false_eq_true, if_false]
    rcases l.recalled with _ | _ | _ <;> rfl
  rcases hrecalled : l.recalled with _ | _ | _
  all_goals rw [hrecalled] at turned
  · exact h.answerable_now hx turned (Scene.finishStop_ends hclient)
  · let u := ((found pool world).dismiss l).send x.pid .kill
    by_cases hrunning : u.pool.isRunning x.pid = true
    · have killed : ((found pool world).dismiss l).killStopped x = u.onPool fun p =>
          (p.setStage x.number .killed).listen x.pid (.stopper x.number) := by
        rw [Scene.killStopped, if_pos hrunning]
      have old : x ∈ u.pool.stoppers := by
        rw [Scene.stoppers_send]
        exact hx
      have still : { x with stage := .killed } ∈
          (Step.after ⟨pool, world, .turn (.stopper x.number)⟩).pool.stoppers := by
        rw [h.after_turn hx, turned, killed]
        exact List.mem_map.mpr ⟨x, old, if_pos rfl⟩
      exact .later _ (own_turn x.number)
        (answerable_killed (h.next (own_turn x.number)) still hclient rfl)
    · have finished : ((found pool world).dismiss l).killStopped x = u.finishStop x := by
        rw [Scene.killStopped, if_neg hrunning]
      exact h.answerable_now hx (turned.trans finished) (Scene.finishStop_ends hclient)
  · exact h.answerable_now hx turned (Scene.giveUp_ends hclient)

omit hclient in
/-- An event of the lookout comes, and the lookout goes on as another. -/
theorem answerable_later {k : Lookout} (hown : event.IsOwn) (hnumber : k.number = l.number)
    (hafter : (Step.after ⟨pool, world, event⟩).pool.lookouts = (pool.setLookout k).lookouts)
    (hstoppers : (Step.after ⟨pool, world, event⟩).pool.stoppers = pool.stoppers)
    (hthen : ∀ {p : Pool} {w : World}, p.Sound w → x ∈ p.stoppers → k ∈ p.lookouts →
      x.stage = .grace k.number → Answerable task p w) : Answerable task pool world := by
  refine .later event hown (hthen (h.next hown) ?_ ?_ (hnumber ▸ hstage))
  · rw [hstoppers]
    exact hx
  · rw [hafter]
    exact Pool.mem_setLookout_self hl hnumber.symm

theorem answerable_back (hback : l.stage = .back) : Answerable task pool world := by
  by_cases hannounced : l.announced = true
  · exact answerable_announced h hx hclient hl hstage hback hannounced
  · have told : Step.after ⟨pool, world, .announce l.number⟩
        = ((found pool world).onPool (·.setLookout { l with announced := true })).post
            (.turn l.owner) := by
      change (found pool world).forLookout l.number (found pool world).announce = _
      rw [Scene.forLookout, h.lookout?_eq hl]
      simp only [Scene.announce, hback, if_true, Scene.callOwner, hannounced, Bool.false_eq_true,
        if_false]
    have own : (Event.announce l.number).IsOwn := ⟨rfl, by simp⟩
    refine answerable_later h hx hl hstage (k := { l with announced := true }) own rfl
      (by rw [told]; rfl) (by rw [told]; rfl) fun hsound hmem hk hgrace => ?_
    exact answerable_announced hsound hmem hclient hk hgrace hback rfl

theorem answerable_recalled (hcalled : l.stage = .called) (hrecalled : l.recalled.isSome = true) :
    Answerable task pool world := by
  have came : Step.after ⟨pool, world, .look l.number⟩ = (found pool world).comeBack l := by
    change (found pool world).forLookout l.number (found pool world).look = _
    rw [Scene.forLookout, h.lookout?_eq hl]
    simp only [Scene.look, hcalled, ne_eq, not_true_eq_false, if_false, hrecalled, if_true]
  have own : (Event.look l.number).IsOwn := ⟨rfl, by simp⟩
  refine answerable_later h hx hl hstage (k := { l with stage := .back }) own rfl
    (by rw [came]; rfl) (by rw [came]; rfl) fun hsound hmem hk hgrace => ?_
  exact answerable_back hsound hmem hclient hk hgrace rfl

theorem answerable_called (hout : l.stage ≠ .back) (hannounced : l.announced = true)
    (hrecalled : l.recalled = none) : Answerable task pool world := by
  have turned : (found pool world).stopperTurn x = (found pool world).callBack l .timeUp := by
    simp only [Scene.stopperTurn, hstage, Scene.consult, h.lookout?_eq hl, hannounced, hrecalled,
      Bool.not_true, Bool.false_eq_true, if_false]
  obtain ⟨lookouts, stoppers⟩ := Scene.callBack_pool (found pool world) .timeUp hout
  refine answerable_later h hx hl hstage
    (k := { l with stage := .called, recalled := some .timeUp, announced := false })
    (own_turn x.number) rfl (by rw [h.after_turn hx, turned, lookouts]; rfl)
    (by rw [h.after_turn hx, turned, stoppers]; rfl) fun hsound hmem hk hgrace => ?_
  exact answerable_recalled hsound hmem hclient hk hgrace rfl rfl

theorem answerable_waiting (hfree : ¬ l.Stuck) : Answerable task pool world := by
  by_cases hback : l.stage = .back
  · exact answerable_back h hx hclient hl hstage hback
  · cases hrecalled : l.recalled with
    | some cause =>
      have recalled : l.recalled.isSome = true := by rw [hrecalled]; rfl
      refine answerable_recalled h hx hclient hl hstage ?_ recalled
      cases hat : l.stage with
      | called => rfl
      | awaitingEnd => exact absurd ⟨recalled, .inl hat⟩ hfree
      | awaitingReport => exact absurd ⟨recalled, .inr hat⟩ hfree
      | back => exact absurd hat hback
    | none =>
      by_cases hannounced : l.announced = true
      · exact answerable_called h hx hclient hl hstage hback hannounced hrecalled
      · have rang : Step.after ⟨pool, world, .alarm l.number⟩
            = ((found pool world).onPool (·.setLookout { l with announced := true })).post
                (.turn l.owner) := by
          change (found pool world).forLookout l.number (found pool world).alarm = _
          rw [Scene.forLookout, h.lookout?_eq hl]
          simp only [Scene.alarm, hrecalled, Option.isSome_none, Scene.callOwner, hannounced,
            Bool.false_eq_true, if_false]
        have own : (Event.alarm l.number).IsOwn := ⟨rfl, by simp⟩
        refine answerable_later h hx hl hstage (k := { l with announced := true }) own rfl
          (by rw [rang]; rfl) (by rw [rang]; rfl) fun hsound hmem hk hgrace => ?_
        exact answerable_called hsound hmem hclient hk hgrace hback rfl hrecalled

end Call

/-- Wherever the stopper of a call stands, the call can be answered. -/
theorem answerable (h : pool.Sound world) (hx : x ∈ pool.stoppers) (hclient : x.client = .call task) :
    Answerable task pool world := by
  have grace : ∀ {p : Pool} {w : World} {y : Stopper} {number : Nat}, p.Sound w → y ∈ p.stoppers →
      y.client = .call task → y.stage = .grace number → Answerable task p w := by
    intro p w y number hsound hy hcall hgrace
    obtain ⟨l, hl, rfl, _, hfree⟩ := hsound.tended y hy number hgrace
    exact answerable_waiting hsound hy hcall hl hgrace hfree
  cases hstage : x.stage with
  | grace number => exact grace h hx hclient hstage
  | killed => exact answerable_killed h hx hclient hstage
  | called =>
    have turned : (found pool world).stopperTurn x = (found pool world).beginStop x := by
      rw [Scene.stopperTurn, hstage]
    by_cases hrunning : (found pool world).pool.isRunning x.pid = true
    · have asked : ∃ number, { x with stage := .grace number } ∈
          ((found pool world).beginStop x).pool.stoppers := by
        have old : x ∈ ((found pool world).send x.pid .terminate).pool.stoppers := by
          rw [Scene.stoppers_send]
          exact hx
        rw [Scene.beginStop, if_pos hrunning]
        exact ⟨_, List.mem_map.mpr ⟨x, old, if_pos rfl⟩⟩
      obtain ⟨number, hmem⟩ := asked
      rw [← turned, ← h.after_turn hx] at hmem
      exact .later _ (own_turn x.number) (grace (h.next (own_turn x.number)) hmem hclient rfl)
    · have finished : (found pool world).beginStop x = (found pool world).finishStop x := by
        rw [Scene.beginStop, if_neg hrunning]
      exact h.answerable_now hx (turned.trans finished) (Scene.finishStop_ends hclient)

end Pool.Sound

/-- What can come in a world that only the pool changes can come in a run. -/
theorem Answerable.run {settings : Settings} {steps : List Step} {pool : Pool} {world : World}
    {spawned task : Nat} (hcan : Answerable task pool world) (h : Run settings steps pool spawned)
    (hle : spawned ≤ world.spawned) :
    ∃ more last later spawned, Run settings (last :: (more ++ steps)) later spawned ∧
      (∀ step ∈ last :: more, step.event.IsOwn) ∧ ∃ outcome, last.Ends task outcome := by
  have fresh : ∀ {event : Event}, event.IsOwn → ∀ task ∈ event.caller?, ∀ other ∈ steps,
      other.event.caller? ≠ some task := by
    intro event hown task htask
    rw [hown.caller] at htask
    contradiction
  induction hcan generalizing steps spawned with
  | @now pool world event outcome hown hends =>
    refine ⟨[], ⟨pool, world, event⟩, _, _, .next _ h rfl hle (fresh hown), ?_, outcome, hends⟩
    intro step hstep
    obtain rfl := List.mem_singleton.mp hstep
    exact hown
  | @later pool world event hown _ ih =>
    have next := Run.next ⟨pool, world, event⟩ h rfl hle (fresh hown)
    obtain ⟨more, last, later, spawned, hrun, hown', hends⟩ :=
      ih next (Nat.le_refl _) fun hown task htask => by rw [hown.caller] at htask; contradiction
    refine ⟨more ++ [⟨pool, world, event⟩], last, later, spawned, ?_, ?_, hends⟩
    · rw [List.append_assoc]
      exact hrun
    · intro step hstep
      rcases List.mem_cons.mp hstep with rfl | hmem
      · exact hown' _ List.mem_cons_self
      · rcases List.mem_append.mp hmem with hmore | hfirst
        · exact hown' step (List.mem_cons_of_mem last hmore)
        · obtain rfl := List.mem_singleton.mp hfirst
          exact hown

theorem Run.can_answer {settings : Settings} {steps : List Step} {pool : Pool}
    {spawned task : Nat} {x : Stopper} (h : Run settings steps pool spawned)
    (hx : x ∈ pool.stoppers) (hclient : x.client = .call task) :
    ∃ more last later spawned, Run settings (last :: (more ++ steps)) later spawned ∧
      (∀ step ∈ last :: more, step.event.IsOwn) ∧ ∃ outcome, last.Ends task outcome := by
  have order := h.inOrder.1
  have tended := h.tended
  cases h with
  | start hnew =>
    obtain ⟨_, rfl⟩ := Pool.new_eq hnew
    exact absurd hx List.not_mem_nil
  | next step =>
    have sound : step.after.pool.Sound step.after.world := ⟨⟨_, order⟩, tended⟩
    exact (sound.answerable hx hclient).run (.next step ‹_› ‹_› ‹_› ‹_›) (Nat.le_refl _)

end ClipRender.Rendering
