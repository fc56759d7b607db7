import ClipRender.Proofs.Rendering.Leaving

set_option autoImplicit false

/-!
What an event makes of the renders in the pool. At most one of them ends; it leaves the tables with
its engine and its marks, and all others stay with theirs.
-/

namespace ClipRender.Rendering

open Pool

variable {past : List Step} {gives : Nat → Prop} {s t : Scene}

/-- A render ends in the course of an event, and nothing else leaves the tables. -/
structure Parts (past : List Step) (gives : Nat → Prop) (s : Scene) (r : Render)
    (outcome : Outcome) (t : Scene) : Prop where
  settings : t.pool.settings = s.pool.settings
  ended : t.pool.ended = s.pool.ended ++ [(r.task, outcome)]
  inFlight : t.pool.inFlight = s.pool.inFlight.filter (· ≠ r.job.id)
  flagged : t.pool.flagged = s.pool.flagged.filter (· ≠ r.job.id)
  active : t.pool.active = s.pool.active.filter (·.1 ≠ r.job.id)
  renders : t.pool.renders.map Render.ordered
    = (s.pool.renders.filter (·.task ≠ r.task)).map Render.ordered
  spawned : t.world.spawned = s.world.spawned
  running : ∀ pid, pid ≤ s.world.spawned → t.pool.isRunning pid = true →
    s.pool.isRunning pid = true
  files : t.world.files = (Scene.discardPart s.world r.part).files ∨ r.job.id ∉ s.pool.flagged
  /-- The reason is that of the render when it leaves, which may have moved on in the event. -/
  verdict : ∃ q pool, q.ordered = r.ordered ∧ pool.flagged = s.pool.flagged ∧
    pool.settings = s.pool.settings ∧ Verdict past pool q outcome ∧
    (r.isWaiting = true → r.job.id ∈ s.pool.flagged → q.isWaiting = true)
  stopped : (∀ pid, (r.job.id, pid) ∈ s.pool.active → t.pool.isRunning pid = false) ∨ gives r.task
  waiting : ∀ q ∈ s.pool.renders, q.task ≠ r.task → q.isWaiting = true →
    q.job.id ∈ s.pool.flagged → ∃ x ∈ t.pool.renders, x.ordered = q.ordered ∧ x.isWaiting = true
  calls : ∀ x ∈ s.pool.stoppers, ∀ task, x.client = .call task →
    ∃ y ∈ t.pool.stoppers, y.client = .call task ∧ y.pid = x.pid

namespace Render

variable {q r : Render} (h : q.ordered = r.ordered)

include h

theorem task_eq : q.task = r.task := by
  have same := congrArg Render.task h
  exact same

theorem job_eq : q.job = r.job := by
  have same := congrArg Render.job h
  exact same

theorem output_eq : q.output = r.output := by
  have same := congrArg Render.output h
  exact same

theorem part_eq : q.part = r.part := by
  have same := congrArg Render.part h
  exact same

theorem command_eq : q.command = r.command := by
  have same := congrArg Render.command h
  exact same

end Render

namespace Keeps

theorem active_eq (h : Keeps s t) (hknown : ∀ entry ∈ t.pool.active, entry.2 ≤ t.world.spawned)
    (hspawned : t.world.spawned = s.world.spawned) : t.pool.active = s.pool.active := by
  obtain ⟨started, hactive, hlater, _⟩ := h.active
  cases started with
  | nil => exact hactive
  | cons entry rest =>
    have hmem : entry ∈ t.pool.active := by
      rw [hactive]
      exact List.mem_append_left _ List.mem_cons_self
    have := hknown entry hmem
    have := hlater entry List.mem_cons_self
    omega

/-- A render was in the pool before, if not as it stands now. -/
theorem former (h : Keeps s t) {q : Render} (hq : q ∈ t.pool.renders) :
    ∃ r ∈ s.pool.renders, r.ordered = q.ordered := by
  have hmem : q.ordered ∈ s.pool.renders.map Render.ordered := by
    rw [← h.renders]
    exact List.mem_map.mpr ⟨q, hq, rfl⟩
  exact List.mem_map.mp hmem

theorem latter (h : Keeps s t) {r : Render} (hr : r ∈ s.pool.renders) :
    ∃ q ∈ t.pool.renders, q.ordered = r.ordered := by
  have hmem : r.ordered ∈ t.pool.renders.map Render.ordered := by
    rw [h.renders]
    exact List.mem_map.mpr ⟨r, hr, rfl⟩
  exact List.mem_map.mp hmem

end Keeps

theorem map_ordered_filter {first second : List Render}
    (h : first.map Render.ordered = second.map Render.ordered) (task : Nat) :
    (first.filter (·.task ≠ task)).map Render.ordered
      = (second.filter (·.task ≠ task)).map Render.ordered := by
  have commutes : ∀ renders : List Render, (renders.filter (·.task ≠ task)).map Render.ordered
      = (renders.map Render.ordered).filter (·.task ≠ task) := by
    intro renders
    rw [List.filter_map]
    rfl
  rw [commutes, commutes, h]

namespace Pool

theorem ordered_released (pool : Pool) :
    pool.released.renders.map Render.ordered = pool.renders.map Render.ordered := by
  rw [released, granted]
  split
  · rfl
  · exact Keeps.ordered_alter _ _ fun _ => rfl

theorem released_eq (pool : Pool) :
    pool.released = { pool with
      free := pool.released.free, renders := pool.released.renders } := by
  rw [released, granted]
  split <;> rfl

theorem waiting_released {pool : Pool} {r : Render} (hr : r ∈ pool.renders)
    (hwaits : r.isWaiting = true) :
    ∃ q ∈ pool.released.renders, q.ordered = r.ordered ∧ q.isWaiting = true := by
  rw [released, granted]
  split
  · exact ⟨r, hr, rfl, hwaits⟩
  · next x _ =>
    by_cases htask : r.task = x.task
    · exact ⟨_, List.mem_map.mpr ⟨r, hr, if_pos htask⟩, rfl, rfl⟩
    · exact ⟨r, mem_alter_of_ne hr htask _, rfl, hwaits⟩

end Pool

namespace Leaves

variable {r : Render} {outcome : Outcome} (h : Leaves s r outcome t)

include h

/-- Whether the render held a slot matters to the slots and to the line only. -/
theorem pool_eq : t.pool = { s.pool.withdrawn r with
    free := t.pool.free
    renders := t.pool.renders
    statuses := s.pool.settled r.task outcome
    ended := s.pool.ended ++ [(r.task, outcome)] } := by
  rw [h.pool]
  split
  · rw [released_eq]
    rfl
  · rfl

theorem renders : t.pool.renders.map Render.ordered
    = (s.pool.renders.filter (·.task ≠ r.task)).map Render.ordered := by
  rw [h.pool]
  split
  · exact map_ordered_filter (ordered_released s.pool) r.task
  · rfl

theorem waiting {q : Render} (hq : q ∈ s.pool.renders) (htask : q.task ≠ r.task)
    (hwaits : q.isWaiting = true) :
    ∃ x ∈ t.pool.renders, x.ordered = q.ordered ∧ x.isWaiting = true := by
  rw [h.pool]
  split
  · obtain ⟨x, hx, hsame, hstill⟩ := waiting_released hq hwaits
    have hother : x.task ≠ r.task := by rwa [Render.task_eq hsame]
    exact ⟨x, List.mem_filter.mpr ⟨hx, decide_eq_true hother⟩, hsame, hstill⟩
  · exact ⟨q, List.mem_filter.mpr ⟨hq, decide_eq_true htask⟩, rfl, hwaits⟩

theorem isRunning_eq (pid : Nat) : t.pool.isRunning pid = s.pool.isRunning pid := by
  rw [h.pool_eq]
  rfl

theorem stays_flagged {number : Nat} (htables : Tables number s.pool) (hr : r ∈ s.pool.renders)
    {q : Render} (hq : q ∈ s.pool.renders) (htask : q.task ≠ r.task)
    (hflag : q.job.id ∈ s.pool.flagged) : q.job.id ∈ t.pool.flagged := by
  rw [h.pool_eq]
  refine List.mem_filter.mpr ⟨hflag, decide_eq_true fun hsame => ?_⟩
  exact htask (by rw [htables.eq_of_id hq hr hsame])

theorem calls {x : Stopper} (hx : x ∈ s.pool.stoppers) : x ∈ t.pool.stoppers := by
  rw [h.pool_eq]
  exact hx

end Leaves

/-- The way on which a render ends. It may have moved on in the event before it leaves. -/
inductive Departs (past : List Step) (concludes : Render → Scene → Prop) (s : Scene) (r : Render)
    (outcome : Outcome) (t : Scene) : Prop
  | intro {q : Render} {before after : Scene} (hsame : q.ordered = r.ordered)
    (hbefore : Goes past s before) (hfiles : before.world.files = s.world.files)
    (hq : q ∈ before.pool.renders) (hleaves : Leaves before q outcome after)
    (hafter : Goes past after t) (hworld : t.world = after.world)
    (hway : Fails s q outcome t ∨ concludes q t)

/-- What an event that has begun makes of the renders and of the calls that cancel. -/
inductive Passes (past : List Step) (gives : Nat → Prop) (concludes : Render → Scene → Prop)
    (s t : Scene) : Prop
  | keeps (h : Keeps s t)
  | answers {u : Scene} {x : Stopper} {task : Nat} {outcome : Outcome} (h : Keeps s u)
    (horder : InOrder past u.world.spawned u.pool) (hx : x ∈ u.pool.stoppers)
    (hclient : x.client = .call task)
    (hpool : t.pool = (u.pool.dropStopper x.number).finish task outcome)
    (hworld : t.world = u.world)
    (houtcome : outcome = .cancelled true ∨ (outcome = .failed .aborted ∧ Aborted past task))
  | parts {r : Render} {outcome : Outcome} (hr : r ∈ s.pool.renders)
    (h : Parts past gives s r outcome t) (hdeparts : Departs past concludes s r outcome t)

section Ending

variable {before after : Scene} {q r : Render} {outcome : Outcome}

/-- A render that waits although its job is to be cancelled waits on when another one leaves. -/
theorem Leaves.waits_on {number : Nat} (hleaves : Leaves before q outcome after)
    (first : Keeps s before) (second : Keeps after t) (htables : Tables number before.pool)
    (hq : q ∈ before.pool.renders) {x : Render} (hx : x ∈ s.pool.renders)
    (hother : x.task ≠ q.task) (hwaits : x.isWaiting = true) (hflag : x.job.id ∈ s.pool.flagged) :
    ∃ w ∈ t.pool.renders, w.ordered = x.ordered ∧ w.isWaiting = true := by
  obtain ⟨y, hy, hyx, hyw⟩ := first.waiting x hx hwaits hflag
  have hne : y.task ≠ q.task := by rwa [Render.task_eq hyx]
  obtain ⟨z, hz, hzy, hzw⟩ := hleaves.waiting hy hne hyw
  have hstill : z.job.id ∈ after.pool.flagged := by
    rw [Render.job_eq hzy]
    refine hleaves.stays_flagged htables hq hy hne ?_
    rwa [Render.job_eq hyx, first.flagged]
  obtain ⟨w, hw, hwz, hww⟩ := second.waiting z hz hzw hstill
  exact ⟨w, hw, hwz.trans (hzy.trans hyx), hww⟩

theorem Leaves.stays_down (hleaves : Leaves before q outcome after) (second : Keeps after t)
    {pid : Nat} (hpid : pid ≤ before.world.spawned) (hdown : before.pool.isRunning pid = false) :
    t.pool.isRunning pid = false := by
  cases hrunning : t.pool.isRunning pid with
  | false => rfl
  | true =>
    have hpid' : pid ≤ after.world.spawned := by rwa [hleaves.spawned]
    have still := second.running pid hpid' hrunning
    rw [hleaves.isRunning_eq, hdown] at still
    contradiction

/-- A render leaves between two stretches in which all renders stay: what the three come to. -/
theorem Leaves.parts (hleaves : Leaves before q outcome after)
    (order : InOrder past before.world.spawned before.pool) (hq : q ∈ before.pool.renders)
    (hsame : q.ordered = r.ordered) (hr : r ∈ s.pool.renders)
    (first : Keeps s before) (hspawned : before.world.spawned = s.world.spawned)
    (hfiles : before.world.files = s.world.files)
    (second : Keeps after t) (hworld : t.world = after.world)
    (hknown : ∀ entry ∈ t.pool.active, entry.2 ≤ t.world.spawned)
    (hverdict : Verdict past before.pool q outcome)
    (hstopped : (∀ pid, (q.job.id, pid) ∈ before.pool.active →
      before.pool.isRunning pid = false) ∨ gives q.task) :
    Parts past gives s r outcome t :=
  have htask : q.task = r.task := Render.task_eq hsame
  have hjob : q.job = r.job := Render.job_eq hsame
  have hpool := hleaves.pool_eq
  have spawned : t.world.spawned = after.world.spawned := by rw [hworld]
  -- No engine starts in either stretch, so that the engines in the tables are the same ones.
  have hbefore := first.active_eq order.links.activeKnown hspawned
  have hafter := second.active_eq hknown spawned
  { settings := by
      rw [second.settings, hpool]
      exact first.settings
    ended := by rw [second.ended, hpool, ← first.ended, htask]
    inFlight := by
      rw [second.inFlight, hpool, ← first.inFlight, ← hjob]
      rfl
    flagged := by
      rw [second.flagged, hpool, ← first.flagged, ← hjob]
      rfl
    active := by
      rw [hafter, hpool, ← hbefore, ← hjob]
      rfl
    renders := by
      rw [second.renders, hleaves.renders, ← htask]
      exact map_ordered_filter first.renders q.task
    spawned := by rw [spawned, hleaves.spawned, hspawned]
    running := by
      intro pid hpid hrunning
      have hpid' : pid ≤ after.world.spawned := by rwa [hleaves.spawned, hspawned]
      have still := second.running pid hpid' hrunning
      rw [hleaves.isRunning_eq] at still
      exact first.running pid hpid still
    files := by
      rw [hworld, ← hjob, ← first.flagged, ← Render.part_eq hsame,
        Scene.files_discardPart hfiles.symm q.part]
      exact hleaves.files
    verdict := by
      refine ⟨q, before.pool, hsame, first.flagged, first.settings, hverdict, ?_⟩
      intro hwaits hflag
      obtain ⟨x, hx, horder, hstill⟩ := first.waiting r hr hwaits hflag
      have same : x = q := order.tables.eq_of_task hx hq
        ((Render.task_eq horder).trans htask.symm)
      rwa [← same]
    stopped := by
      refine hstopped.imp (fun hdown pid hactive => ?_) fun hgives => htask ▸ hgives
      have hmem : (q.job.id, pid) ∈ before.pool.active := by rwa [hbefore, hjob]
      exact hleaves.stays_down second (order.links.activeKnown _ hmem) (hdown pid hmem)
    waiting := fun x hx hother hwaits hflag =>
      hleaves.waits_on first second order.tables hq hx (htask ▸ hother) hwaits hflag
    calls := by
      intro x hx task hclient
      obtain ⟨y, hy, hyclient, hypid⟩ := first.calls x hx task hclient
      obtain ⟨z, hz, hzclient, hzpid⟩ := second.calls y (hleaves.calls hy) task hyclient
      exact ⟨z, hz, hzclient, hzpid.trans hypid⟩ }

end Ending

theorem Closes.passes {concludes : Render → Scene → Prop} (h : InOrder past s.world.spawned s.pool)
    (hcloses : Closes past gives concludes s t) : Passes past gives concludes s t := by
  cases hcloses with
  | goes hgoes => exact .keeps (Keeps.goes h hgoes)
  | answers hgoes hx hclient hpool hworld houtcome =>
    exact .answers (Keeps.goes h hgoes) (h.goes hgoes) hx hclient hpool hworld houtcome
  | @ends before after _ q outcome hgoes hfiles hspawned hq hverdict hleaves hstopped hafter hworld
      hway =>
    have order := h.goes hgoes
    have left := order.leaves hq hleaves
    have first := Keeps.goes h hgoes
    have second := Keeps.goes left hafter
    obtain ⟨r, hr, hsame⟩ := first.former hq
    have hparts : Parts past gives s r outcome t :=
      hleaves.parts order hq hsame.symm hr first hspawned hfiles second hworld
        (left.goes hafter).links.activeKnown hverdict hstopped
    exact .parts hr hparts (.intro hsame.symm hgoes hfiles hq hleaves hafter hworld hway)

/-- How a task ends that no render belongs to, at the event that tells it so. -/
inductive Answered (past : List Step) (s t : Scene) : Event → Nat → Outcome → Prop
  | refused {task : Nat} {order : Order} {failure : Failure}
    (hpool : t.pool = { s.pool with statuses := t.pool.statuses, ended := t.pool.ended })
    (hwhy : ∀ id, failure = .reported (.jobInFlight id) → id ∈ s.pool.inFlight) :
    Answered past s t (.order task order) task (.failed failure)
  | found {task : Nat} {jobId : String} (hjob : jobId ∈ s.pool.inFlight) :
    Answered past s t (.cancel task jobId) task (.cancelled true)
  | notFound {task : Nat} {jobId : String} (hjob : jobId ∉ s.pool.inFlight)
    (hpool : t.pool = { s.pool with ended := t.pool.ended }) (hworld : t.world = s.world) :
    Answered past s t (.cancel task jobId) task (.cancelled false)
  | stopped {event : Event} {task : Nat} {jobId : String} {outcome : Outcome}
    (hcancels : Cancels past task jobId)
    (houtcome : outcome = .cancelled true ∨ (outcome = .failed .aborted ∧ Aborted past task)) :
    Answered past s t event task outcome

/-- An event at which no render ends leaves all of them in the tables, with their marks and their
engines. -/
structure Carries (past : List Step) (s : Scene) (event : Event) (t : Scene) : Prop where
  settings : t.pool.settings = s.pool.settings
  flagged : ∀ id, id ∈ t.pool.flagged ↔
    id ∈ s.pool.flagged ∨ (id ∈ s.pool.inFlight ∧ ∃ task, event = .cancel task id)
  active : ∃ started, t.pool.active = started ++ s.pool.active ∧
    (∀ entry ∈ started, s.world.spawned < entry.2) ∧
    ∀ pid, s.world.spawned < pid → pid ≤ t.world.spawned → ∃ id, (id, pid) ∈ started
  running : ∀ pid, pid ≤ s.world.spawned → t.pool.isRunning pid = true →
    s.pool.isRunning pid = true
  latter : ∀ r ∈ s.pool.renders, ∃ q ∈ t.pool.renders, q.ordered = r.ordered
  former : ∀ q ∈ t.pool.renders, (∃ r ∈ s.pool.renders, r.ordered = q.ordered) ∨
    (q.job.id ∉ s.pool.inFlight ∧ ∃ order, event = .order q.task order)
  waiting : ∀ r ∈ s.pool.renders, r.isWaiting = true → r.job.id ∈ s.pool.flagged →
    ∃ q ∈ t.pool.renders, q.ordered = r.ordered ∧ q.isWaiting = true
  ended : t.pool.ended = s.pool.ended ∨ ∃ task outcome,
    t.pool.ended = s.pool.ended ++ [(task, outcome)] ∧ Answered past s t event task outcome
  calls : ∀ x ∈ s.pool.stoppers, ∀ task, x.client = .call task →
    (∃ y ∈ t.pool.stoppers, y.client = .call task ∧ y.pid = x.pid) ∨
      ∃ outcome, t.pool.ended = s.pool.ended ++ [(task, outcome)]

/-- From a scene to one with an entry more in the tables, on from there, and to an answer at the
end. -/
theorem Keeps.carries {event : Event} {u v : Scene} (h : Keeps u v)
    (hfirst : u.pool = { s.pool with
      free := u.pool.free, inFlight := u.pool.inFlight, flagged := u.pool.flagged
      renders := u.pool.renders, statuses := u.pool.statuses, ended := u.pool.ended })
    (hspawned : u.world.spawned = s.world.spawned)
    (hlast : t.pool = { v.pool with stoppers := t.pool.stoppers, ended := t.pool.ended })
    (hworld : t.world = v.world)
    (hflagged : ∀ id, id ∈ u.pool.flagged ↔
      id ∈ s.pool.flagged ∨ (id ∈ s.pool.inFlight ∧ ∃ task, event = .cancel task id))
    (hlatter : ∀ r ∈ s.pool.renders, r ∈ u.pool.renders)
    (hformer : ∀ q ∈ u.pool.renders, q ∈ s.pool.renders ∨
      (q.job.id ∉ s.pool.inFlight ∧ ∃ order, event = .order q.task order))
    (hended : t.pool.ended = s.pool.ended ∨ ∃ task outcome,
      t.pool.ended = s.pool.ended ++ [(task, outcome)] ∧ Answered past s t event task outcome)
    (hcalls : ∀ x ∈ v.pool.stoppers, ∀ task, x.client = .call task →
      x ∈ t.pool.stoppers ∨ ∃ outcome, t.pool.ended = s.pool.ended ++ [(task, outcome)]) :
    Carries past s event t where
  settings := by rw [hlast]; exact h.settings.trans (by rw [hfirst])
  flagged := by
    rw [hlast]
    intro id
    change id ∈ v.pool.flagged ↔ _
    rw [h.flagged]
    exact hflagged id
  active := by
    obtain ⟨started, hactive, hnew, hall⟩ := h.active
    refine ⟨started, ?_, ?_, ?_⟩
    · rw [hlast]
      exact hactive.trans (by rw [hfirst])
    · rw [← hspawned]
      exact hnew
    · rw [← hspawned, hworld]
      exact hall
  running := by
    rw [hlast, ← hspawned]
    intro pid hpid hrunning
    have old := h.running pid hpid hrunning
    rw [hfirst] at old
    exact old
  latter := by
    rw [hlast]
    exact fun r hr => h.latter (hlatter r hr)
  former := by
    rw [hlast]
    intro q hq
    obtain ⟨r, hr, hsame⟩ := h.former hq
    rcases hformer r hr with hold | ⟨hid, order, hevent⟩
    · exact .inl ⟨r, hold, hsame⟩
    · exact .inr ⟨Render.job_eq hsame ▸ hid, order, Render.task_eq hsame ▸ hevent⟩
  waiting := by
    rw [hlast]
    exact fun r hr hwaits hflag =>
      h.waiting r (hlatter r hr) hwaits ((hflagged _).mpr (.inl hflag))
  ended := hended
  calls := by
    intro x hx task hclient
    have hmem : x ∈ u.pool.stoppers := by rw [hfirst]; exact hx
    obtain ⟨y, hy, hsame, hpid⟩ := h.calls x hmem task hclient
    exact (hcalls y hy task hsame).imp_left fun hstill => ⟨y, hstill, hsame, hpid⟩

theorem Keeps.carries_flag {task : Nat} {jobId : String} {v : Scene}
    (h : Keeps (s.onPool (·.flag jobId)) v) (hjob : jobId ∈ s.pool.inFlight)
    (hlast : t.pool = { v.pool with ended := t.pool.ended }) (hworld : t.world = v.world)
    (hended : t.pool.ended = s.pool.ended ∨ ∃ other outcome,
      t.pool.ended = s.pool.ended ++ [(other, outcome)] ∧
        Answered past s t (.cancel task jobId) other outcome) :
    Carries past s (.cancel task jobId) t := by
  have hflag : (s.onPool (·.flag jobId)).pool
      = { s.pool with flagged := (s.pool.flag jobId).flagged } :=
    flag_eq s.pool jobId
  refine h.carries ?_ rfl (by rw [hlast]) hworld (fun id => ?_) ?_ ?_ hended ?_
  · rw [hflag]
  · refine mem_flagged_flag.trans ⟨fun hor => hor.symm.imp_right ?_, fun hor => hor.symm.imp_left ?_⟩
    · rintro rfl
      exact ⟨hjob, task, rfl⟩
    · rintro ⟨_, other, hevent⟩
      exact (Event.cancel.inj hevent).2.symm
  · rw [hflag]
    exact fun _ hr => hr
  · rw [hflag]
    exact fun _ hq => .inl hq
  · rw [hlast]
    exact fun x hx _ _ => .inl hx

theorem flagged_unless_cancel {event : Event} (h : ∀ task id, event ≠ .cancel task id)
    (pool : Pool) (id : String) : id ∈ pool.flagged ↔
      id ∈ pool.flagged ∨ (id ∈ pool.inFlight ∧ ∃ task, event = .cancel task id) := by
  refine ⟨.inl, fun hor => hor.elim (fun hflag => hflag) ?_⟩
  rintro ⟨_, task, hevent⟩
  exact absurd hevent (h task id)

/-- The answer to a call goes with the stopper of the call, and all other calls go on. -/
theorem Passes.splits {event : Event} {concludes : Render → Scene → Prop}
    (hevent : event.caller? = none) (hpasses : Passes past gives concludes s t) :
    Carries past s event t ∨ ∃ r ∈ s.pool.renders, ∃ outcome,
      Parts past gives s r outcome t ∧ Departs past concludes s r outcome t := by
  have quiet : ∀ task id, event ≠ .cancel task id := by
    rintro task id rfl
    contradiction
  have flagged := flagged_unless_cancel quiet s.pool
  cases hpasses with
  | keeps hkeeps =>
    exact .inl (hkeeps.carries rfl rfl rfl rfl flagged (fun _ hr => hr)
      (fun _ hq => .inl hq) (.inl hkeeps.ended) fun x hx _ _ => .inl hx)
  | @answers u x task outcome hkeeps horder hx hclient hpool hworld houtcome =>
    obtain ⟨jobId, hcancels, _⟩ := horder.excuses.calls x hx task hclient
    have last : t.pool.ended = s.pool.ended ++ [(task, outcome)] := by
      rw [hpool, ← hkeeps.ended]
      rfl
    refine .inl (hkeeps.carries rfl rfl (by rw [hpool]; rfl) hworld flagged
      (fun _ hr => hr) (fun _ hq => .inl hq)
      (.inr ⟨task, outcome, last, .stopped hcancels houtcome⟩) fun y hy other hother => ?_)
    by_cases hsame : y.number = x.number
    · obtain rfl := horder.links.eq_of_stopper hx hy hsame
      obtain rfl := Client.call.inj (hclient.symm.trans hother)
      exact .inr ⟨outcome, last⟩
    · rw [hpool]
      exact .inl (List.mem_filter.mpr ⟨hy, decide_eq_true hsame⟩)
  | parts hr hparts hdeparts => exact .inr ⟨_, hr, _, hparts, hdeparts⟩

theorem Carries.refused {task : Nat} {order : Order} {failure : Failure}
    (hpool : t.pool = { s.pool with
      statuses := t.pool.statuses, ended := s.pool.ended ++ [(task, .failed failure)] })
    (hspawned : t.world.spawned = s.world.spawned)
    (hwhy : ∀ id, failure = .reported (.jobInFlight id) → id ∈ s.pool.inFlight) :
    Carries past s (.order task order) t := by
  have same : t.pool.flagged = s.pool.flagged ∧ t.pool.renders = s.pool.renders := by
    rw [hpool]
    exact ⟨rfl, rfl⟩
  have last : t.pool.ended = s.pool.ended ++ [(task, .failed failure)] := by rw [hpool]
  refine (Keeps.refl t).carries (by rw [hpool]) hspawned rfl rfl ?_ ?_ ?_
    (.inr ⟨task, .failed failure, last, .refused (by rw [hpool]) hwhy⟩) fun x hx _ _ => .inl hx
  · rw [same.1]
    exact flagged_unless_cancel (fun _ _ hevent => Event.noConfusion hevent) s.pool
  · exact fun _ hr => same.2 ▸ hr
  · exact fun _ hq => .inl (same.2 ▸ hq)

/-- A render that joins is the one entry more, and its job has been in flight nowhere. -/
theorem Carries.joins {order : Order} {q : Render} {free : Nat} {u : Scene}
    (hid : q.job.id ∉ s.pool.inFlight) (hpool : u.pool = { s.pool.joined q free with
      statuses := u.pool.statuses })
    (hspawned : u.world.spawned = s.world.spawned) (hkeeps : Keeps u t) :
    Carries past s (.order q.task order) t := by
  have same : u.pool.flagged = s.pool.flagged ∧ u.pool.ended = s.pool.ended := by
    rw [hpool]
    exact ⟨rfl, rfl⟩
  refine hkeeps.carries (by rw [hpool]; rfl) hspawned rfl rfl ?_ ?_ ?_
    (.inl (hkeeps.ended.trans same.2)) fun x hx _ _ => .inl hx
  · rw [same.1]
    exact flagged_unless_cancel (fun _ _ hevent => Event.noConfusion hevent) s.pool
  · rw [hpool]
    exact fun _ hr => List.mem_append_left _ hr
  · rw [hpool]
    intro x hx
    rcases List.mem_append.mp hx with hold | hnew
    · exact .inl hold
    · obtain rfl := List.mem_singleton.mp hnew
      exact .inr ⟨hid, order, rfl⟩

theorem Carries.notFound {task : Nat} {jobId : String} (hjob : jobId ∉ s.pool.inFlight)
    (hpool : t.pool = { s.pool with ended := s.pool.ended ++ [(task, .cancelled false)] })
    (hworld : t.world = s.world) : Carries past s (.cancel task jobId) t := by
  have last : t.pool.ended = s.pool.ended ++ [(task, .cancelled false)] := by rw [hpool]
  refine (Keeps.refl s).carries rfl rfl (by rw [hpool]) hworld (fun id => ?_) (fun _ hr => hr)
    (fun _ hq => .inl hq)
    (.inr ⟨task, .cancelled false, last, .notFound hjob (by rw [hpool]) hworld⟩) ?_
  · refine ⟨.inl, fun hor => hor.elim (fun hflag => hflag) ?_⟩
    rintro ⟨hid, other, hevent⟩
    exact absurd ((Event.cancel.inj hevent).2 ▸ hid) hjob
  · rw [hpool]
    exact fun x hx _ _ => .inl hx

/-- At an event one render ends, or none does. -/
theorem Course.splits {event : Event} (h : InOrder past s.world.spawned s.pool)
    (hcourse : Course past s event t) :
    Carries past s event t ∨ ∃ r ∈ s.pool.renders, ∃ outcome,
      event.caller? = none ∧ Parts past (GivesUp s.pool · event) s r outcome t ∧
        Departs past (Concludes s event) s r outcome t := by
  cases hcourse with
  | quiet hevent hcloses =>
    rcases (hcloses.passes h).splits hevent with hcarries | ⟨r, hr, outcome, hparts, hdeparts⟩
    · exact .inl hcarries
    · exact .inr ⟨r, hr, outcome, hevent, hparts, hdeparts⟩
  | @flags task jobId _ hjob hgoes =>
    have hkeeps := Keeps.goes (s := s.onPool (·.flag jobId)) (h.flag hjob) hgoes
    exact .inl (hkeeps.carries_flag hjob rfl rfl (.inl (hkeeps.ended.trans ended_flag)))
  | @answersAtOnce task jobId hjob =>
    have last : (s.pool.flag jobId).ended ++ [(task, .cancelled true)]
        = s.pool.ended ++ [(task, .cancelled true)] := by
      rw [ended_flag]
    exact .inl ((Keeps.refl (s.onPool (·.flag jobId))).carries_flag hjob rfl rfl
      (.inr ⟨task, .cancelled true, last, .found hjob⟩))
  | notFound hjob => exact .inl (.notFound hjob rfl rfl)
  | refused hpool hspawned hwhy => exact .inl (.refused hpool hspawned hwhy)
  | joins hid _ _ hpool _ _ hspawned horder hgoes =>
    exact .inl (.joins hid (by rw [hpool]) hspawned (Keeps.goes horder hgoes))

/-- A render goes on with its engine and its mark, and where it waits although its job is to be
cancelled it waits on. -/
structure Stays (s : Scene) (r : Render) (t : Scene) : Prop where
  latter : ∃ q ∈ t.pool.renders, q.ordered = r.ordered
  active : ∀ pid, (r.job.id, pid) ∈ s.pool.active → (r.job.id, pid) ∈ t.pool.active
  flagged : r.job.id ∈ s.pool.flagged → r.job.id ∈ t.pool.flagged
  waiting : r.isWaiting = true → r.job.id ∈ s.pool.flagged →
    ∃ q ∈ t.pool.renders, q.ordered = r.ordered ∧ q.isWaiting = true
  quiet : ∀ outcome, (r.task, outcome) ∉ t.pool.ended

theorem Carries.stays {event : Event} (h : Carries past s event t) {r : Render}
    (hr : r ∈ s.pool.renders) (hquiet : ∀ outcome, (r.task, outcome) ∉ t.pool.ended) :
    Stays s r t where
  latter := h.latter r hr
  active := by
    obtain ⟨started, hactive, _⟩ := h.active
    rw [hactive]
    exact fun pid hmem => List.mem_append_right _ hmem
  flagged hflag := (h.flagged _).mpr (.inl hflag)
  waiting := h.waiting r hr
  quiet := hquiet

theorem Parts.stays {r q : Render} {outcome : Outcome} (h : Parts past gives s q outcome t)
    (htables : s.pool.Tables 0) (hended : s.pool.ended = []) (hr : r ∈ s.pool.renders)
    (hq : q ∈ s.pool.renders) (hne : r ≠ q) : Stays s r t :=
  have htask : r.task ≠ q.task := fun hsame => hne (htables.eq_of_task hr hq hsame)
  have hid : r.job.id ≠ q.job.id := fun hsame => hne (htables.eq_of_id hr hq hsame)
  { latter := by
      have hmem : r.ordered ∈ t.pool.renders.map Render.ordered := by
        rw [h.renders]
        exact List.mem_map.mpr ⟨r, List.mem_filter.mpr ⟨hr, decide_eq_true htask⟩, rfl⟩
      exact List.mem_map.mp hmem
    active := by
      intro pid hmem
      rw [h.active]
      exact List.mem_filter.mpr ⟨hmem, decide_eq_true hid⟩
    flagged := by
      intro hflag
      rw [h.flagged]
      exact List.mem_filter.mpr ⟨hflag, decide_eq_true hid⟩
    waiting := h.waiting r hr htask
    quiet := by
      intro other hmem
      rw [h.ended, hended, List.nil_append, List.mem_singleton] at hmem
      exact htask (Prod.mk.inj hmem).1 }

theorem Parts.former {r : Render} {outcome : Outcome} (h : Parts past gives s r outcome t)
    {q : Render} (hq : q ∈ t.pool.renders) :
    ∃ x ∈ s.pool.renders, x.task ≠ r.task ∧ x.ordered = q.ordered := by
  have hmem : q.ordered ∈ (s.pool.renders.filter (·.task ≠ r.task)).map Render.ordered := by
    rw [← h.renders]
    exact List.mem_map.mpr ⟨q, hq, rfl⟩
  obtain ⟨x, hx, hsame⟩ := List.mem_map.mp hmem
  obtain ⟨hold, hother⟩ := List.mem_filter.mp hx
  exact ⟨x, hold, of_decide_eq_true hother, hsame⟩

end ClipRender.Rendering
