import ClipRender.Proofs.Rendering.Refusing
import ClipRender.Proofs.Rendering.Starting

set_option autoImplicit false

/-!
Every event takes one of the courses.
-/

namespace ClipRender.Rendering.Scene

open Pool

variable {past : List Step} {gives : Nat → Prop} {concludes : Render → Scene → Prop} {s : Scene}
  {r : Render}

theorem abandon_failHolding (s : Scene) (r : Render) (task : Nat) :
    (s.abandon task).failHolding r .aborted = (s.failHolding r .aborted).abandon task := by
  simp only [failHolding, release, grant, onPool, abandon]
  cases s.pool.renders.find? (·.phase = .queued) <;> rfl

section Turns

variable (h : InOrder past s.world.spawned s.pool)

include h

section Aborts

variable (haborted : Aborted past r.task)

include haborted

omit h in
theorem abandon_closes (hr : r ∈ s.pool.renders) (hphase : r.phase = .shielded)
    (hgives : gives r.task) :
    Closes past gives concludes s ((s.abandon r.task).failHolding r .aborted) := by
  have left : Leaves s r (.failed .aborted) (s.failHolding r .aborted) :=
    failHolding_leaves (by simp [Render.holdsSlot, hphase]) .aborted
  have gone : ∀ q ∈ (s.failHolding r .aborted).pool.renders, q.task ≠ r.task := by
    rw [left.pool]
    exact fun q hq => of_decide_eq_true (List.mem_filter.mp hq).2
  rw [abandon_failHolding]
  exact .ends .refl rfl rfl hr (.aborted haborted) left (.inr hgives)
    (Goes.moves (.abandoned gone) rfl) rfl
    (.inl ⟨⟨.aborted, .aborted, rfl⟩, (failHolding_fails .aborted).files⟩)

theorem abortRender_closes (hr : r ∈ s.pool.renders) :
    Closes past (GivesUp s.pool · (.abort r.task)) concludes s (s.abortRender r) := by
  rw [abortRender]
  cases hphase : r.phase with
  | queued =>
    refine .ending hr (.aborted haborted)
      (fail_leaves (by simp [Render.holdsSlot, hphase]) .aborted) (.inl fun _ hactive => ?_)
      (fail_fails .aborted)
    exact absurd rfl (h.tables.no_engine hr (by simp [Render.hasEngine, hphase]) _ hactive)
  | granted =>
    exact failHolding_idle h hr (by simp [Render.holdsSlot, hphase])
      (by simp [Render.hasEngine, hphase]) .aborted (.aborted haborted)
  | spawning script =>
    have asked : Stirs past s (s.ask (.callOff (.startDue r.task))) := .ask h.links.listening _
    exact .stirs asked (failHolding_idle (h.goes (Goes.stirs asked)) hr
      (by simp [Render.holdsSlot, hphase]) (by simp [Render.hasEngine, hphase]) .aborted
      (.aborted haborted))
  | watching pid number =>
    refine .goes (Goes.stirs (.abortWait h.links.listening fun l hl hnumber => ?_))
    rw [((h.links.watching r hr pid number hphase).2.2 l hl hnumber).2]
    exact haborted
  | stopping =>
    dsimp only
    split
    · next x hx =>
      have hworks : worksIn r.task x = true := List.find?_some hx
      refine abortStop_closes h (List.mem_of_find?_eq_some hx) hworks haborted
        fun hstage q hq hclient => ?_
      have htask : q.task = r.task := by simpa [worksIn, hclient] using hworks
      rw [htask] at hclient ⊢
      exact .killed hr rfl hphase hx hclient hstage
    · exact .goes .refl
  | shielded => exact abandon_closes haborted hr hphase (.shielded hr rfl hphase)

end Aborts

theorem abort_closes {task : Nat} (haborted : Aborted past task) :
    Closes past (GivesUp s.pool · (.abort task)) concludes s (s.abort task) := by
  rw [abort]
  split
  · next r _ hr =>
    obtain ⟨hmem, rfl⟩ := render?_mem hr
    exact abortRender_closes h haborted hmem
  · next x hnone hx =>
    have hworks : worksIn task x = true := List.find?_some hx
    refine abortStop_closes h (List.mem_of_find?_eq_some hx) hworks haborted
      fun _ q hq hclient => ?_
    have htask : q.task = task := by simpa [worksIn, hclient] using hworks
    rw [← htask, h.tables.render?_eq hq] at hnone
    contradiction
  · exact .goes .refl

theorem granted_closes (hr : r ∈ s.pool.renders) (hphase : r.phase = .granted) :
    Closes past gives concludes s ((if s.pool.free = 0 then s else s.grant).begin r) := by
  split
  · exact begin_closes h hr hphase
  · next hfree =>
    have granting := grant_goes h (Nat.pos_of_ne_zero hfree)
    have hmem : r ∈ s.grant.pool.renders := by
      rw [grant_pool]
      exact mem_granted hr h.tables.tasks (by simp [hphase])
    exact .after granting (by rw [grant_world]) (by rw [grant_world])
      (begin_closes (h.goes granting) hmem hphase)

/-- A lookout that comes back unrecalled has seen the end of the engine, so that the render ends
with no engine behind it. -/
theorem seen_closes (hr : r ∈ s.pool.renders) {l : Lookout} {pid : Nat}
    (hphase : r.phase = .watching pid l.number) (hlookout : s.pool.lookout? l.number = some l)
    (hannounced : l.announced = true) (hback : l.stage = .back) (hrecalled : l.recalled = none)
    (dismissed : Stirs past s (s.dismiss l)) :
    Closes past gives (Concludes s (.turn (.render r.task))) s
      ((s.dismiss l).answered r pid .seen) := by
  obtain ⟨hl, _⟩ := lookout?_mem hlookout
  obtain ⟨hactive, _, hall⟩ := h.links.watching r hr pid l.number hphase
  have hdown := h.links.settled l hl (.inr ⟨hback, hrecalled⟩)
  rw [(hall l hl rfl).1] at hdown
  have hengine : r.hasEngine = true := by simp [Render.hasEngine, hphase]
  dsimp only [answered]
  split
  · next process hprocess =>
    obtain ⟨outcome, hconcluded, hleaves⟩ : ∃ outcome,
        Concluded (s.dismiss l) r process ((s.dismiss l).conclude r process) outcome ∧
          Leaves (s.dismiss l) r outcome ((s.dismiss l).conclude r process) :=
      conclude_concluded _ _ (Render.holdsSlot_of_hasEngine hengine)
    have pid : process.pid = pid := process?_pid hprocess
    have sees : Sees s (.turn (.render r.task)) r l process :=
      ⟨rfl, hr, by rw [hphase, pid], hlookout, hannounced, hback, hrecalled,
        by rw [pid]; exact hprocess⟩
    refine .ends (Goes.stirs dismissed) rfl rfl hr (hconcluded.verdict hengine) hleaves
      (.inl fun other hother => ?_) .refl rfl (.inr (.intro sees))
    rw [h.tables.engine_eq hother hactive]
    exact hdown
  · exact .goes (Goes.stirs dismissed)

/-- A lookout is recalled for time or for an abort, and there is a reason for either. -/
theorem recalled_closes (hr : r ∈ s.pool.renders) {l : Lookout} {pid : Nat}
    (hphase : r.phase = .watching pid l.number) (hl : l ∈ s.pool.lookouts) {cause : Recall}
    (hrecalled : l.recalled = some cause) (dismissed : Stirs past s (s.dismiss l)) :
    Closes past gives concludes s ((s.dismiss l).answered r pid (.recalled cause)) := by
  obtain ⟨hactive, _, hall⟩ := h.links.watching r hr pid l.number hphase
  have howner := (hall l hl rfl).2
  have hengine : r.hasEngine = true := by simp [Render.hasEngine, hphase]
  have order := h.goes (Goes.stirs dismissed)
  cases cause with
  | timeUp =>
    have overdue := h.excuses.overdue l hl (.inl hrecalled)
    rw [howner] at overdue
    exact .stirs dismissed (stopOwn_closes order hr hengine hactive fun _ => overdue)
  | aborted =>
    have haborted := h.excuses.aborted l hl hrecalled
    rw [howner] at haborted
    exact .stirs dismissed (.goes (shield_goes hr hengine hactive haborted))

/-- Without a stopper behind the shield the engine has ended. -/
theorem unguarded_closes (hr : r ∈ s.pool.renders) (hphase : r.phase = .shielded)
    (hunguarded : ¬ s.pool.stoppers.any (·.client = .aborted r.task) = true) :
    Closes past gives concludes s (s.failHolding r .aborted) := by
  refine .ending hr (.aborted (h.excuses.shielded r hr hphase))
    (failHolding_leaves (by simp [Render.holdsSlot, hphase]) .aborted)
    (.inl fun pid hactive => ?_) (failHolding_fails .aborted)
  cases hrunning : s.pool.isRunning pid with
  | false => rfl
  | true =>
    obtain ⟨x, hx, hclient⟩ := h.links.guarded r hr hphase pid hactive hrunning
    exact absurd (List.any_eq_true.mpr ⟨x, hx, decide_eq_true hclient⟩) hunguarded

theorem renderTurn_closes (hr : r ∈ s.pool.renders) (hturn : TurnOf past (.render r.task)) :
    Closes past gives (Concludes s (.turn (.render r.task))) s (s.renderTurn r) := by
  rw [renderTurn]
  cases hphase : r.phase with
  | granted => exact granted_closes h hr hphase
  | watching pid number =>
    dsimp only
    rcases hconsult : s.consult number with ⟨t, _ | finding⟩
    · exact .goes (Goes.stirs (.consult_none h.links.listening hconsult))
    · obtain ⟨l, hlookout, hannounced, hback, hrecalled, rfl⟩ := Stirs.consult_some hconsult
      obtain ⟨hl, rfl⟩ := lookout?_mem hlookout
      obtain ⟨_, _, hall⟩ := h.links.watching r hr pid l.number hphase
      have dismissed : Stirs past s (s.dismiss l) :=
        .dismiss h.links.listening hl (by rw [(hall l hl rfl).2]; exact hturn)
      cases finding with
      | seen => exact seen_closes h hr hphase hlookout hannounced hback hrecalled dismissed
      | recalled cause => exact recalled_closes h hr hphase hl hrecalled dismissed
  | shielded =>
    dsimp only
    split
    · exact .goes .refl
    · next hunguarded => exact unguarded_closes h hr hphase hunguarded
  | _ => exact .goes .refl

theorem turn_closes (party : Party) (hturn : TurnOf past party) :
    Closes past (GivesUp s.pool · (.turn party)) (Concludes s (.turn party)) s (s.turn party) := by
  cases party with
  | render task =>
    rw [turn]
    split
    · next r hr =>
      obtain ⟨hmem, rfl⟩ := render?_mem hr
      exact renderTurn_closes h hmem hturn
    · exact .goes .refl
  | stopper number =>
    rw [turn]
    split
    · next x hx =>
      obtain ⟨hmem, rfl⟩ := stopper?_mem hx
      exact stopperTurn_closes h hmem hturn
    · exact .goes .refl

theorem spawned_closes (task : Nat) : Closes past gives concludes s (s.spawned task) := by
  rw [spawned]
  split
  · next r hr =>
    split
    · next script hphase => exact started_closes h (render?_mem hr).1 hphase
    · exact .goes .refl
  · exact .goes .refl

omit h in
theorem forLookout_goes {number : Nat} {f : Lookout → Scene}
    (hf : ∀ l ∈ s.pool.lookouts, l.number = number → Stirs past s (f l)) :
    Goes past s (s.forLookout number f) := by
  rw [forLookout]
  split
  · next l hlookout =>
    obtain ⟨hl, hnumber⟩ := lookout?_mem hlookout
    exact Goes.stirs (hf l hl hnumber)
  · exact .refl

end Turns

section Orders

variable (h : InOrder past s.world.spawned s.pool)

include h

/-- What nobody has for a job and a task that nobody knows. -/
theorem withdrawn_foreign (hid : r.job.id ∉ s.pool.inFlight)
    (htask : ∀ q ∈ s.pool.renders, q.task ≠ r.task) : s.pool.withdrawn r = s.pool := by
  have known : ∀ entry ∈ s.pool.active, entry.1 ≠ r.job.id := by
    intro entry hentry hsame
    obtain ⟨q, hq, hname, _⟩ := h.tables.active entry hentry
    exact hid ((h.tables.inFlight _).mpr (List.mem_map.mpr ⟨q, hq, hname.trans hsame⟩))
  have renders := List.filter_eq_self.mpr fun q hq => decide_eq_true (htask q hq)
  have inFlight := List.filter_eq_self (p := fun id => decide (id ≠ r.job.id)).mpr
    fun id hmem => decide_eq_true fun hsame : id = r.job.id => hid (hsame ▸ hmem)
  have flagged := List.filter_eq_self (p := fun id => decide (id ≠ r.job.id)).mpr
    fun id hmem => decide_eq_true fun hsame : id = r.job.id =>
      hid (hsame ▸ h.tables.flagged id hmem)
  have active := List.filter_eq_self.mpr fun entry hentry => decide_eq_true (known entry hentry)
  rw [Pool.withdrawn, renders, inFlight, flagged, active]

variable {w : Scene} (hid : r.job.id ∉ s.pool.inFlight)
  (htask : ∀ q ∈ s.pool.renders, q.task ≠ r.task)

include hid htask

/-- A render that starts its engine as soon as it comes, and whose engine cannot be started, leaves
no trace. -/
theorem withdrawn_started {now : Nat} {script : Engine.Script} {pool : Pool}
    (hfree : s.pool.free ≠ 0) (hline : s.pool.renders.any Pool.isWaiting = false)
    (hpool : ∃ statuses, pool = { markStarted
      (s.pool.joined { r with phase := .granted } (s.pool.free - 1)) r.task now script with
      statuses := statuses }) :
    pool.released.withdrawn { r with phase := .spawning script, started := now }
      = { s.pool with statuses := pool.statuses } := by
  obtain ⟨statuses, hpool⟩ := hpool
  have others : (s.pool.renders.map fun q =>
      if q.task = r.task then { q with phase := .spawning script, started := now } else q)
        = s.pool.renders := by
    conv_rhs => rw [← List.map_id s.pool.renders]
    apply List.map_congr_left
    exact fun q hq => if_neg (htask q hq)
  have renders : pool.renders
      = s.pool.renders ++ [{ r with phase := .spawning script, started := now }] := by
    rw [hpool]
    simp [markStarted, Pool.joined, others]
  have unqueued : pool.renders.find? (·.phase = .queued) = none := by
    rw [renders, List.find?_eq_none]
    intro q hq
    rcases List.mem_append.mp hq with hq | hq
    · intro hqueued
      have hwaits : Pool.isWaiting q = true := by
        rw [Pool.isWaiting, of_decide_eq_true hqueued]
      rw [List.any_eq_true.mpr ⟨q, hq, hwaits⟩] at hline
      contradiction
    · obtain rfl := List.mem_singleton.mp hq
      simp
  have released : pool.released = { pool with free := pool.free + 1 } := by
    rw [Pool.released, Pool.granted]
    simp only [unqueued]
  have free : pool.free + 1 = s.pool.free := by
    rw [hpool]
    exact Nat.sub_add_cancel (Nat.pos_of_ne_zero hfree)
  have foreign := withdrawn_foreign h hid htask
  have left : pool.released.withdrawn { r with phase := .spawning script, started := now }
      = { s.pool.withdrawn r with statuses := pool.statuses } := by
    rw [released, Pool.withdrawn, Pool.withdrawn]
    simp only [renders, free]
    rw [hpool]
    simp [markStarted, Pool.joined]
  rw [left, foreign]

section Line

def enter (scene : Scene) (r : Render) (free : Nat) : Scene :=
  scene.onPool fun p => { p with renders := p.renders ++ [r], free := free }

variable {order : Order} (hadmits : Admits s order r w.world.files)
  (hpool : w.pool = { s.pool with
    inFlight := r.job.id :: s.pool.inFlight
    statuses := s.pool.statuses ++ [(r.task, .pending)] })
  (hspawned : w.world.spawned = s.world.spawned)

include hpool

omit h hid htask in
theorem enter_pool (free : Nat) : (w.enter r free).pool =
    { s.pool.joined r free with statuses := s.pool.statuses ++ [(r.task, .pending)] } := by
  simp only [enter, onPool]
  rw [hpool]
  rfl

include hspawned

theorem enter_inOrder {free : Nat} (hwaits : r.isWaiting = true)
    (slot : free + (if r.holdsSlot then 1 else 0) = s.pool.free)
    (hstoppers : ∀ x ∈ s.pool.stoppers, x.client.render? ≠ some r.task)
    (hordered : Ordered past r.task) :
    InOrder past (w.enter r free).world.spawned (w.enter r free).pool := by
  have joined := h.joined hid hwaits slot htask hstoppers hordered
  rw [← hspawned] at joined
  exact joined.elsewhere (by rw [enter_pool hpool])

include hadmits

theorem started_in_vain_course (hfree : s.pool.free ≠ 0)
    (hline : s.pool.renders.any Pool.isWaiting = false)
    (hcommand : command s.pool.settings r.job r.part.text = .ok r.command)
    {t : Scene} {now : Nat} {script : Engine.Script} {fault : StartFault}
    (hdrawn : t.pool = (markStarted (w.enter { r with phase := .granted } (s.pool.free - 1)).pool
      r.task now script).setStatus r.task .running)
    (hfiles : t.world.files = w.world.files) (hsame : t.world.spawned = w.world.spawned)
    (hfault : script.startFault = some fault) :
    Course past s (.order r.task order)
      (t.started { r with phase := .spawning script, started := now } script) := by
  have entered := @enter_pool s { r with phase := .granted } w hpool (s.pool.free - 1)
  have holds : ({ r with phase := .spawning script, started := now } : Render).holdsSlot = true := by
    simp [Render.holdsSlot]
  let why : Failure := .reported (.cannotStart t.pool.settings.enginePath fault)
  have left := failHolding_leaves (s := t) holds why
  have fails : Fails t { r with phase := .spawning script, started := now } (.failed why)
      (t.failHolding { r with phase := .spawning script, started := now } why) :=
    failHolding_fails (.reported _)
  have gone : t.pool.released.withdrawn { r with phase := .spawning script, started := now }
      = { s.pool with statuses := t.pool.statuses } :=
    withdrawn_started h hid htask hfree hline ⟨t.pool.statuses, by rw [hdrawn, entered]; rfl⟩
  have ended : t.pool.ended = s.pool.ended := by
    rw [hdrawn, entered]
    rfl
  have settled : t.pool.settled r.task (.failed why) = ({ s.pool with
      statuses := s.pool.statuses ++ [(r.task, .pending)] } : Pool).settled r.task
        (.failed why) := by
    rw [hdrawn, entered]
    exact (settled_setStatus (.reported _) _ _).trans (settled_eq rfl)
  have other : ∀ id, why = .reported (.jobInFlight id) → id ∈ s.pool.inFlight := by
    simp [why]
  have admits : Admits s order { r with phase := .granted } w.world.files :=
    ⟨hadmits.job, hadmits.directory, hadmits.output, hadmits.part⟩
  rw [started, hfault]
  refine .refused ?_ (left.spawned.trans (hsame.trans hspawned)) other
    (.dropped admits rfl (.inr ⟨.reported _, hcommand⟩) ?_ ?_)
  · dsimp only
    rw [left.pool, ended, holds, if_pos rfl, gone]
  · dsimp only
    rw [left.pool]
    exact settled
  · rw [fails.files]
    refine files_discardPart ?_ _
    exact hfiles

theorem waiting_course (hqueued : r.phase = .queued)
    (hstoppers : ∀ x ∈ s.pool.stoppers, x.client.render? ≠ some r.task)
    (hordered : Ordered past r.task)
    (hcommand : command s.pool.settings r.job r.part.text = .ok r.command) :
    Course past s (.order r.task order) (w.enter r s.pool.free) := by
  have slot : s.pool.free + (if r.holdsSlot then 1 else 0) = s.pool.free := by
    simp [Render.holdsSlot, hqueued]
  have hwaits : r.isWaiting = true := by simp [Render.isWaiting, Pool.isWaiting, hqueued]
  have order := enter_inOrder h hid htask hpool hspawned hwaits slot hstoppers hordered
  exact .joins hid hwaits slot (enter_pool hpool _) hadmits hcommand hspawned order .refl

/-- A render that need not wait stands as one that has just been granted a slot, and begins. -/
theorem turn_course (hgranted : r.phase = .granted) (hfree : s.pool.free ≠ 0)
    (hnobody : s.pool.renders.any Pool.isWaiting = false)
    (hstoppers : ∀ x ∈ s.pool.stoppers, x.client.render? ≠ some r.task)
    (hordered : Ordered past r.task)
    (hcommand : command s.pool.settings r.job r.part.text = .ok r.command) :
    Course past s (.order r.task order) ((w.enter r (s.pool.free - 1)).begin r) := by
  have entered := @enter_pool s r w hpool (s.pool.free - 1)
  have hwaits : r.isWaiting = true := by simp [Render.isWaiting, Pool.isWaiting, hgranted]
  have slot : s.pool.free - 1 + (if r.holdsSlot then 1 else 0) = s.pool.free := by
    have hholds : r.holdsSlot = true := by simp [Render.holdsSlot, hgranted]
    rw [if_pos hholds]
    exact Nat.sub_add_cancel (Nat.pos_of_ne_zero hfree)
  have order := enter_inOrder h hid htask hpool hspawned hwaits slot hstoppers hordered
  have hmem : r ∈ (w.enter r (s.pool.free - 1)).pool.renders :=
    List.mem_append_right _ List.mem_cons_self
  have hflag : r.job.id ∉ (w.enter r (s.pool.free - 1)).pool.flagged := by
    rw [entered]
    exact fun hmem => hid (h.tables.flagged _ hmem)
  obtain ⟨later, now, script, hscript, drawn, hfiles, hsame, hlater, hstands, hbegin⟩ :=
    begin_draws past hmem hgranted hflag
  by_cases hstarts : script.startDelay = 0 ∧ script.startFault ≠ none
  · obtain ⟨fault, hfault⟩ := Option.ne_none_iff_exists'.mp hstarts.2
    rw [hbegin, if_pos hstarts.1]
    have same : ({ r with phase := .granted } : Render) = r := by rw [← hgranted]
    exact started_in_vain_course h hid htask hadmits hpool hspawned hfree hnobody hcommand
      (by rw [same]; exact hlater) hfiles hsame hfault
  · refine .joins hid hwaits slot entered hadmits hcommand hspawned order
      (begin_goes order hmem hgranted hflag ?_)
    intro hnow
    by_contra hfault
    exact hstarts ⟨hscript ▸ hnow, hscript ▸ hfault⟩

theorem lineUp_course (hqueued : r.phase = .queued)
    (hstoppers : ∀ x ∈ s.pool.stoppers, x.client.render? ≠ some r.task)
    (hordered : Ordered past r.task)
    (hcommand : command s.pool.settings r.job r.part.text = .ok r.command) :
    Course past s (.order r.task order) (w.lineUp r) := by
  have hline : w.pool.free = s.pool.free ∧ w.pool.renders = s.pool.renders := by
    rw [hpool]
    exact ⟨rfl, rfl⟩
  rw [lineUp, hline.1, hline.2]
  split
  · have waits : (w.onPool fun p => { p with renders := p.renders ++ [r] })
        = w.enter r s.pool.free := by
      rw [← hline.1]
      rfl
    rw [waits]
    exact waiting_course h hid htask hadmits hpool hspawned hqueued hstoppers hordered hcommand
  · next hturn =>
    obtain ⟨hfree, hnobody⟩ : s.pool.free ≠ 0 ∧ s.pool.renders.any Pool.isWaiting = false := by
      simpa using hturn
    let q : Render := { r with phase := .granted }
    have unmarked : r.job.id ∉ w.pool.flagged := by
      rw [hpool]
      exact fun hmem => hid (h.tables.flagged _ hmem)
    have same : (w.onPool fun p => { p with
        renders := p.renders ++ [r], free := p.free - 1 }).begin r
          = (w.enter q (s.pool.free - 1)).begin q := by
      simp [begin, enter, q, onPool, unmarked, markStarted, hline.1]
    have admits : Admits s order q w.world.files :=
      ⟨hadmits.job, hadmits.directory, hadmits.output, hadmits.part⟩
    rw [same]
    exact turn_course (r := q) h hid htask admits hpool hspawned rfl hfree hnobody hstoppers
      hordered hcommand

theorem fail_course {failure : Failure}
    (hcommand : command s.pool.settings r.job r.part.text = .error failure) :
    Course past s (.order r.task order) (w.fail r failure) := by
  obtain ⟨left, hworld⟩ := fail_eq w r failure
  have foreign : w.pool.withdrawn r = { s.pool with statuses := w.pool.statuses } := by
    have gone : w.pool.withdrawn r = { s.pool.withdrawn r with statuses := w.pool.statuses } := by
      rw [hpool]
      simp [Pool.withdrawn]
    rw [gone, withdrawn_foreign h hid htask]
  have ended : w.pool.ended = s.pool.ended := by rw [hpool]
  have settled : w.pool.settled r.task (.failed failure) = ({ s.pool with
      statuses := s.pool.statuses ++ [(r.task, .pending)] } : Pool).settled r.task
        (.failed failure) :=
    settled_eq (by rw [hpool])
  refine .refused ?_ ?_ (fun id hid => absurd (hid ▸ hcommand) (Spares.command _ _ _ id))
    (.dropped hadmits rfl (.inl hcommand) ?_ ?_)
  · rw [left, foreign, ended]
  · rw [hworld, spawned_discardPart, hspawned]
  · rw [left]
    exact settled
  · rw [hworld]
    refine files_discardPart ?_ _
    rfl

end Line

omit hid htask

theorem run_course {task : Nat} {order : Order} {job : Job} (hid : job.id ∉ s.pool.inFlight)
    (hjob : ∃ world, s.createJob order = (world, .ok job))
    (hdirectory : s.world.files.ensureDirectories s.outputDirectory.text = (w.world.files, none))
    (htask : ∀ q ∈ s.pool.renders, q.task ≠ task)
    (hstoppers : ∀ x ∈ s.pool.stoppers, x.client.render? ≠ some task)
    (hordered : Ordered past task)
    (hpool : w.pool = { s.pool with statuses := s.pool.statuses ++ [(task, .pending)] })
    (hspawned : w.world.spawned = s.world.spawned) :
    Course past s (.order task order) (w.run task job) := by
  have settings : w.pool.settings = s.pool.settings := by rw [hpool]
  have entered : (w.onPool fun p => { p with inFlight := job.id :: p.inFlight }).pool
      = { s.pool with
        inFlight := job.id :: s.pool.inFlight
        statuses := s.pool.statuses ++ [(task, .pending)] } := by
    simp only [onPool]
    rw [hpool]
  have admits : ∀ arguments, Admits s order ⟨task, job, s.outputDirectory.child job.outputName,
      (s.outputDirectory.child job.outputName).partial?.getD
        (s.outputDirectory.child job.outputName), arguments, 0, .queued⟩ w.world.files :=
    fun _ => ⟨hjob, hdirectory, rfl, rfl⟩
  let t : Scene := w.onPool fun p => { p with inFlight := job.id :: p.inFlight }
  rw [run, settings]
  split
  · next failure hcommand =>
    refine fail_course h (r := ⟨task, job, _, _, [], 0, .queued⟩) (w := t) hid htask (admits [])
      entered hspawned ?_
    rwa [onPool, settings] at hcommand
  · next arguments hcommand =>
    refine lineUp_course h (r := ⟨task, job, _, _, arguments, 0, .queued⟩) (w := t) hid htask
      (admits arguments) entered hspawned rfl hstoppers hordered ?_
    rwa [onPool, settings] at hcommand

theorem accept_course {task : Nat} {order : Order}
    (htask : ∀ q ∈ s.pool.renders, q.task ≠ task)
    (hstoppers : ∀ x ∈ s.pool.stoppers, x.client.render? ≠ some task)
    (hordered : Ordered past task) : Course past s (.order task order) (s.accept task order) := by
  obtain ⟨drawn, hdrawn⟩ := createJob_world s order
  rw [accept]
  split
  next world job? hmade =>
  obtain rfl : world = { s.world with tokensDrawn := drawn } := by rw [← hdrawn, hmade]
  rcases hmkdir : s.world.files.ensureDirectories s.outputDirectory.text with ⟨files, fault?⟩
  have mkdir := hmkdir
  rw [outputDirectory] at mkdir
  cases job? with
  | error failure =>
    exact .refused rfl rfl (fun id hid => createJob_error (hid ▸ hmade)) (.unmade hmade rfl rfl)
  | ok job =>
    dsimp only [onPool]
    rw [mkdir]
    cases fault? with
    | some fault =>
      have other : ∀ id, Failure.file fault = .reported (.jobInFlight id) → id ∈ s.pool.inFlight :=
        by simp
      exact .refused rfl rfl other (.homeless hmade hmkdir rfl)
    | none =>
      exact run_course h (createJob_ok hmade) ⟨_, hmade⟩ hmkdir htask hstoppers hordered rfl rfl

end Orders

theorem runningEngine?_mem {pool : Pool} {jobId : String} {pid : Nat}
    (h : pool.runningEngine? jobId = some pid) :
    (jobId, pid) ∈ pool.active ∧ pool.isRunning pid = true := by
  obtain ⟨hlookup, hrunning⟩ := Option.filter_eq_some_iff.mp h
  obtain ⟨before, later, hactive, _⟩ := List.lookup_eq_some_iff.mp hlookup
  refine ⟨?_, hrunning⟩
  rw [hactive]
  exact List.mem_append_right _ List.mem_cons_self

theorem cancel_course (h : InOrder past s.world.spawned s.pool) {task : Nat} {jobId : String}
    (hcancels : Cancels past task jobId) :
    Course past s (.cancel task jobId) (s.cancel task jobId) := by
  rw [cancel]
  by_cases hjob : jobId ∈ s.pool.inFlight
  · simp only [contains_iff.mpr hjob, Bool.not_true, Bool.false_eq_true, if_false]
    have flagged : InOrder past (s.onPool (·.flag jobId)).world.spawned
      (s.onPool (·.flag jobId)).pool := h.flag hjob
    split
    · exact .answersAtOnce hjob
    · next pid hengine =>
      obtain ⟨hactive, hrunning⟩ := runningEngine?_mem hengine
      have staffed : Goes past (s.onPool (·.flag jobId))
          ((s.onPool (·.flag jobId)).onPool fun p => { p with
            stoppers := p.stoppers ++ [⟨p.numbers + 1, pid, .called, .call task⟩]
            numbers := p.numbers + 1 }) :=
        Goes.moves (.assisted hcancels hactive) rfl
      have hx : (⟨(s.pool.flag jobId).numbers + 1, pid, .called, .call task⟩ : Stopper)
          ∈ ((s.onPool (·.flag jobId)).onPool fun p => { p with
            stoppers := p.stoppers ++ [⟨p.numbers + 1, pid, .called, .call task⟩]
            numbers := p.numbers + 1 }).pool.stoppers :=
        List.mem_append_right _ List.mem_cons_self
      have order := flagged.goes staffed
      have begun := beginStop_running order hx hrunning
      obtain ⟨x, hmem, hclient, _⟩ := (Keeps.goes order begun).calls _ hx task rfl
      exact .flags hjob (staffed.trans begun) ⟨x, hmem, hclient⟩
  · have absent : s.pool.inFlight.contains jobId = false := by simpa using hjob
    rw [absent]
    exact .notFound hjob

end ClipRender.Rendering.Scene

namespace ClipRender.Rendering

open Pool Scene

/-- The pool as an event finds it, told of no end yet. -/
def Step.found (step : Step) : Scene := ⟨{ step.before with ended := [] }, step.world, []⟩

theorem Step.after_eq (step : Step) : step.after = step.found.handle step.event := rfl

/-- Every event takes one of the courses. -/
theorem Step.course {past : List Step} (step : Step)
    (h : InOrder (step :: past) step.world.spawned step.before)
    (hfresh : ∀ task order, step.event = .order task order →
      (∀ q ∈ step.before.renders, q.task ≠ task) ∧
        ∀ x ∈ step.before.stoppers, x.client.render? ≠ some task) :
    Course (step :: past) step.found step.event step.after := by
  have order : InOrder (step :: past) step.found.world.spawned step.found.pool :=
    h.elsewhere rfl
  have listening : step.found.pool.Listening := order.links.listening
  have now : step ∈ step :: past := List.mem_cons_self
  rw [step.after_eq]
  cases hevent : step.event with
  | order task want =>
    obtain ⟨htask, hstoppers⟩ := hfresh task want hevent
    exact accept_course order htask hstoppers ⟨step, now, want, hevent⟩
  | cancel task jobId => exact cancel_course order ⟨step, now, hevent⟩
  | turn party => exact .quiet rfl (turn_closes order party ⟨step, past, rfl, hevent⟩)
  | look number =>
    exact .quiet rfl (.goes (forLookout_goes fun l hl _ => .look listening hl))
  | announce number =>
    exact .quiet rfl (.goes (forLookout_goes fun l hl _ => .announce listening hl))
  | alarm number =>
    refine .quiet rfl (.goes (forLookout_goes fun l hl hnumber => .alarm listening hl ?_))
    cases howner : l.owner with
    | render task => exact .inr ⟨step, now, l, hl, howner, by rw [hnumber, hevent]⟩
    | stopper other => trivial
  | startDue task => exact .quiet rfl (.goes (Goes.stirs (.post listening _)))
  | spawned task => exact .quiet rfl (spawned_closes order task)
  | exited pid code => exact .quiet rfl (.goes (Goes.stirs (.exit listening pid code)))
  | drained pid => exact .quiet rfl (.goes (Goes.stirs (.drain listening pid)))
  | stopped task => exact .quiet rfl (.goes (Goes.stirs (.post listening _)))
  | abort task => exact .quiet rfl (abort_closes order ⟨step, now, hevent⟩)

end ClipRender.Rendering
