import ClipRender.Proofs.Rendering.Concluding

set_option autoImplicit false

/-!
Watching an engine and stopping one, taken apart into stirs and moves. Where an operation ends a
render, the reason is found.
-/

namespace ClipRender.Rendering.Scene

open Pool

variable {past : List Step} {gives : Nat → Prop} {concludes : Render → Scene → Prop} {s : Scene}
  {r : Render} {x : Stopper}
variable (h : InOrder past s.world.spawned s.pool)

include h

theorem grant_goes (hfree : 0 < s.pool.free) : Goes past s s.grant := by
  rw [grant]
  split
  · exact .refl
  · next q hq =>
    have given : Goes past s (s.onPool fun p =>
        { p.setPhase q.task .granted with free := p.free - 1 }) :=
      .moves (.granted hq hfree) rfl
    exact given.trans (Goes.stirs (.post (h.goes given).links.listening _))

omit h in
theorem watch_goes {pid : Nat} (hr : r ∈ s.pool.renders) (hengine : r.hasEngine = true)
    (hactive : (r.job.id, pid) ∈ s.pool.active) : Goes past s (s.watch r pid) := by
  rw [watch]
  by_cases hbudget : Binary64.le s.pool.settings.renderTimeout Binary64.zero = true
  · simp only [hbudget, if_true]
    exact .moves (.watched
      (l := ⟨s.pool.numbers + 1, pid, true, .render r.task, .called, some .timeUp, false⟩)
      hr hengine hactive ⟨rfl, rfl, rfl, .inr ⟨rfl, .inl hbudget⟩⟩ rfl) rfl
  · simp only [hbudget]
    exact .moves (.watched
      (l := ⟨s.pool.numbers + 1, pid, true, .render r.task, .called, none, false⟩)
      hr hengine hactive ⟨rfl, rfl, rfl, .inl rfl⟩ rfl) rfl

omit h in
theorem shield_goes {pid : Nat} (hr : r ∈ s.pool.renders) (hengine : r.hasEngine = true)
    (hactive : (r.job.id, pid) ∈ s.pool.active) (haborted : Aborted past r.task) :
    Goes past s (s.shield r pid) :=
  .moves (.shielded hr hengine hactive haborted) rfl

theorem failHolding_closes {pid : Nat} {failure : Failure} (hr : r ∈ s.pool.renders)
    (hengine : r.hasEngine = true) (hactive : (r.job.id, pid) ∈ s.pool.active)
    (hdown : s.pool.isRunning pid = false ∨ gives r.task)
    (hplanned : failure.Planned) (hverdict : Verdict past s.pool r (.failed failure)) :
    Closes past gives concludes s (s.failHolding r failure) := by
  refine .ending hr hverdict (failHolding_leaves (Render.holdsSlot_of_hasEngine hengine) failure)
    (hdown.imp_left fun hdown other hother => ?_) (failHolding_fails hplanned)
  rw [h.tables.engine_eq hother hactive]
  exact hdown

theorem failHolding_idle {failure : Failure} (hr : r ∈ s.pool.renders)
    (hholds : r.holdsSlot = true) (hidle : r.hasEngine = false)
    (hplanned : failure.Planned) (hverdict : Verdict past s.pool r (.failed failure)) :
    Closes past gives concludes s (s.failHolding r failure) :=
  .ending hr hverdict (failHolding_leaves hholds failure)
    (.inl fun _ hactive => absurd rfl (h.tables.no_engine hr hidle _ hactive))
    (failHolding_fails hplanned)

section Stoppers

variable (hx : x ∈ s.pool.stoppers)

include hx

theorem served {task : Nat} (hclient : x.client.render? = some task) {q : Render}
    (hq : s.pool.render? task = some q) :
    q ∈ s.pool.renders ∧ q.task = task ∧ q.hasEngine = true ∧
      (q.job.id, x.pid) ∈ s.pool.active := by
  obtain ⟨hmem, htask⟩ := render?_mem hq
  obtain ⟨hengine, hactive⟩ := h.links.serving x hx q hmem (by rw [htask, hclient])
  exact ⟨hmem, htask, hengine, hactive⟩

theorem drop_goes (hcall : ∀ task, x.client ≠ .call task)
    (hdown : s.pool.isRunning x.pid = false) :
    Goes past s ((s.send x.pid .kill).onPool (·.dropStopper x.number)) := by
  have sent : Stirs past s (s.send x.pid .kill) := .send h.links.listening _ _
  refine (Goes.stirs sent).trans
    (Goes.moves (.dropped ?_ hcall fun _ _ => sent.stays_ended hdown) rfl)
  rw [sent.stoppers]
  exact hx

theorem finishStop_goes (hcall : ∀ task, x.client ≠ .call task)
    (htime : ∀ task, x.client ≠ .render task .timeout)
    (hdown : s.pool.isRunning x.pid = false) : Goes past s (s.finishStop x) := by
  have sent : Stirs past s (s.send x.pid .kill) := .send h.links.listening _ _
  have still : x ∈ (s.send x.pid .kill).pool.stoppers := by rw [sent.stoppers]; exact hx
  have dropped := drop_goes h hx hcall hdown
  rw [finishStop]
  cases hclient : x.client with
  | call task => exact absurd hclient (hcall task)
  | render task reason =>
    cases reason with
    | timeout => exact absurd hclient (htime task)
    | cancelled =>
      dsimp only
      split
      · next q hq =>
        obtain ⟨hmem, _, hengine, hactive⟩ :=
          served (h.goes (Goes.stirs sent)) still (by rw [hclient]; rfl) hq
        exact dropped.trans (watch_goes hmem hengine hactive)
      · exact dropped
  | aborted task => exact dropped.trans (Goes.stirs (.post (h.goes dropped).links.listening _))
  | nobody => exact dropped

theorem finishStop_closes (hdown : s.pool.isRunning x.pid = false) :
    Closes past gives concludes s (s.finishStop x) := by
  have sent : Stirs past s (s.send x.pid .kill) := .send h.links.listening _ _
  have still : x ∈ (s.send x.pid .kill).pool.stoppers := by rw [sent.stoppers]; exact hx
  have order := h.goes (Goes.stirs sent)
  cases hclient : x.client with
  | call task =>
    rw [finishStop, hclient]
    exact .answers (Goes.stirs sent) still hclient rfl rfl (.inl rfl)
  | render task reason =>
    cases reason with
    | cancelled =>
      exact .goes (finishStop_goes h hx (by simp [hclient]) (by simp [hclient]) hdown)
    | timeout =>
      have down := sent.stays_ended hdown
      have dropped := drop_goes h hx (by simp [hclient]) hdown
      have later := h.goes dropped
      rw [finishStop, hclient]
      dsimp only
      refine .after dropped sent.files sent.spawned ?_
      split
      · next q hq =>
        obtain ⟨hmem, htask, hengine, hactive⟩ := served order still (by rw [hclient]; rfl) hq
        refine failHolding_closes later hmem hengine hactive (.inl down) (.reported _)
          (.timeout hengine ?_)
        rw [htask]
        exact order.excuses.timeouts x still task hclient
      · exact .goes .refl
  | aborted task => exact .goes (finishStop_goes h hx (by simp [hclient]) (by simp [hclient]) hdown)
  | nobody => exact .goes (finishStop_goes h hx (by simp [hclient]) (by simp [hclient]) hdown)

theorem beginStop_running (hrunning : s.pool.isRunning x.pid = true) :
    Goes past s (s.beginStop x) := by
  have sent : Stirs past s (s.send x.pid .terminate) := .send h.links.listening _ _
  have still : x ∈ (s.send x.pid .terminate).pool.stoppers := by rw [sent.stoppers]; exact hx
  rw [beginStop, if_pos hrunning]
  refine (Goes.stirs sent).trans (Goes.moves (.graced
    (l := ⟨(s.send x.pid .terminate).pool.numbers + 1, x.pid, false, .stopper x.number, .called,
      none, false⟩) still rfl ⟨rfl, rfl, rfl, .inl rfl⟩ rfl) rfl)

theorem beginStop_goes (hcall : ∀ task, x.client ≠ .call task)
    (htime : ∀ task, x.client ≠ .render task .timeout) : Goes past s (s.beginStop x) := by
  cases hrunning : s.pool.isRunning x.pid with
  | true => exact beginStop_running h hx hrunning
  | false =>
    rw [beginStop, hrunning]
    exact finishStop_goes h hx hcall htime hrunning

theorem beginStop_closes : Closes past gives concludes s (s.beginStop x) := by
  cases hrunning : s.pool.isRunning x.pid with
  | true => exact .goes (beginStop_running h hx hrunning)
  | false =>
    rw [beginStop, hrunning]
    exact finishStop_closes h hx hrunning

theorem killStopped_closes : Closes past gives concludes s (s.killStopped x) := by
  have sent : Stirs past s (s.send x.pid .kill) := .send h.links.listening _ _
  have still : x ∈ (s.send x.pid .kill).pool.stoppers := by rw [sent.stoppers]; exact hx
  rw [killStopped]
  cases hrunning : (s.send x.pid .kill).pool.isRunning x.pid with
  | true =>
    simp only [if_true]
    exact .stirs sent (.goes (Goes.moves (.killed still) rfl))
  | false =>
    simp only [Bool.false_eq_true, if_false]
    exact .stirs sent (finishStop_closes (h.goes (Goes.stirs sent)) still hrunning)

/-- An abort of the task in which a stopper works. Only a render whose time is up leaves an engine
that may run. -/
theorem giveUp_closes {task : Nat} (hworks : worksIn task x = true) (haborted : Aborted past task)
    (hgives : ∀ q ∈ s.pool.renders, x.client = .render q.task .timeout → gives q.task) :
    Closes past gives concludes s (s.giveUp x) := by
  have deaf : Stirs past s (s.onPool (·.unlisten (.stopper x.number))) :=
    .unlisten h.links.listening _
  rw [giveUp]
  cases hclient : x.client with
  | call caller =>
    obtain rfl : caller = task := by simpa [worksIn, hclient] using hworks
    exact .answers (Goes.stirs deaf) hx hclient rfl rfl (.inr ⟨rfl, haborted⟩)
  | render own reason =>
    obtain rfl : own = task := by simpa [worksIn, hclient] using hworks
    have dropped : Goes past s (s.onPool fun p =>
        (p.dropStopper x.number).unlisten (.stopper x.number)) :=
      (Goes.stirs deaf).trans
        (Goes.moves (.dropped hx (by simp [hclient]) (by simp [hclient])) rfl)
    have later := h.goes dropped
    refine .after dropped rfl rfl ?_
    dsimp only
    split
    · exact .goes .refl
    · next q hq =>
      obtain ⟨hmem, htask, hengine, hactive⟩ := served h hx (by rw [hclient]; rfl) hq
      have why : Aborted past q.task := by rw [htask]; exact haborted
      cases reason with
      | cancelled => exact .goes (shield_goes hmem hengine hactive why)
      | timeout =>
        exact failHolding_closes later hmem hengine hactive
          (.inr (hgives q hmem (by rw [hclient, htask]))) .aborted (.aborted why)
  | aborted other => simp [worksIn, hclient] at hworks
  | nobody => simp [worksIn, hclient] at hworks

theorem stopperTurn_closes (hturn : TurnOf past (.stopper x.number)) :
    Closes past (GivesUp s.pool · (.turn (.stopper x.number))) concludes s (s.stopperTurn x) := by
  rw [stopperTurn]
  cases hstage : x.stage with
  | called => exact beginStop_closes h hx
  | killed =>
    dsimp only
    split
    · exact .goes .refl
    · next hdown => exact finishStop_closes h hx (by simpa using hdown)
  | grace number =>
    dsimp only
    rcases hconsult : s.consult number with ⟨t, _ | finding⟩
    · exact .goes (Goes.stirs (.consult_none h.links.listening hconsult))
    · obtain ⟨l, hlookout, hannounced, hback, hrecalled, rfl⟩ := Stirs.consult_some hconsult
      obtain ⟨hl, hnumber⟩ := lookout?_mem hlookout
      obtain ⟨hpid, howner⟩ := (h.links.grace x hx number hstage).2 l hl hnumber
      have dismissed : Stirs past s (s.dismiss l) :=
        .dismiss h.links.listening hl (by rw [howner]; exact hturn)
      have order := h.goes (Goes.stirs dismissed)
      cases finding with
      | seen =>
        have hdown := h.links.settled l hl (.inr ⟨hback, hrecalled⟩)
        rw [hpid] at hdown
        exact .stirs dismissed (finishStop_closes order hx hdown)
      | recalled cause =>
        cases cause with
        | timeUp => exact .stirs dismissed (killStopped_closes order hx)
        | aborted =>
          have hblamed := h.excuses.aborted l hl hrecalled
          rw [howner] at hblamed
          obtain ⟨task, hworks, haborted⟩ := hblamed x hx rfl
          exact .stirs dismissed (giveUp_closes order hx hworks haborted fun q hq hclient =>
            .graced hx hclient hstage hlookout hannounced hback hrecalled)

theorem abortStop_closes {task : Nat} (hworks : worksIn task x = true)
    (haborted : Aborted past task)
    (hgives : x.stage = .killed → ∀ q ∈ s.pool.renders, x.client = .render q.task .timeout →
      gives q.task) : Closes past gives concludes s (s.abortStop x) := by
  rw [abortStop]
  cases hstage : x.stage with
  | called => exact .goes .refl
  | killed => exact giveUp_closes h hx hworks haborted (hgives hstage)
  | grace number =>
    refine .goes (Goes.stirs (.abortWait h.links.listening fun l hl hnumber => ?_))
    rw [((h.links.grace x hx number hstage).2 l hl hnumber).2]
    intro other hother hsame
    obtain rfl := h.links.eq_of_stopper hx hother hsame
    exact ⟨task, hworks, haborted⟩

end Stoppers

section Engines

variable (hr : r ∈ s.pool.renders)

include hr

omit h in
theorem stopOwn_staffed {pid : Nat} {reason : StopReason} (hengine : r.hasEngine = true)
    (hactive : (r.job.id, pid) ∈ s.pool.active)
    (htime : reason = .timeout → Overdue s.pool.settings past r.task) :
    ∃ t x, Goes past s t ∧ t.world = s.world ∧ x ∈ t.pool.stoppers ∧
      x.client = .render r.task reason ∧ s.stopOwn r pid reason = t.beginStop x :=
  ⟨s.onPool fun p => { p.setPhase r.task .stopping with
      stoppers := p.stoppers ++ [⟨p.numbers + 1, pid, .called, .render r.task reason⟩]
      numbers := p.numbers + 1 },
    ⟨s.pool.numbers + 1, pid, .called, .render r.task reason⟩,
    Goes.moves (.stopped hr hengine hactive htime) rfl, rfl,
    List.mem_append_right _ List.mem_cons_self, rfl, rfl⟩

theorem stopOwn_goes {pid : Nat} (hengine : r.hasEngine = true)
    (hactive : (r.job.id, pid) ∈ s.pool.active) : Goes past s (s.stopOwn r pid .cancelled) := by
  have never : StopReason.cancelled = .timeout → Overdue s.pool.settings past r.task := by simp
  obtain ⟨t, x, staffed, _, hx, hclient, hstop⟩ := stopOwn_staffed hr hengine hactive never
  rw [hstop]
  exact staffed.trans (beginStop_goes (h.goes staffed) hx (by simp [hclient]) (by simp [hclient]))

theorem stopOwn_closes {pid : Nat} {reason : StopReason} (hengine : r.hasEngine = true)
    (hactive : (r.job.id, pid) ∈ s.pool.active)
    (htime : reason = .timeout → Overdue s.pool.settings past r.task) :
    Closes past gives concludes s (s.stopOwn r pid reason) := by
  obtain ⟨t, x, staffed, hworld, hx, _, hstop⟩ := stopOwn_staffed hr hengine hactive htime
  rw [hstop]
  exact .after staffed (by rw [hworld]) (by rw [hworld]) (beginStop_closes (h.goes staffed) hx)

end Engines

end ClipRender.Rendering.Scene
