import ClipRender.Proofs.Rendering.Run
import Mathlib.Data.List.Nodup

set_option autoImplicit false

/-!
What lookouts and engines do among themselves. None of it touches the tables, the renders or the
stoppers; engines only ever end; and no lookout comes back with word of an end that is none.
-/

namespace ClipRender.Rendering

/-- It waits for the report of an engine that has ended, or is back with word of the end. -/
def Lookout.Settled (l : Lookout) : Prop :=
  l.stage = .awaitingReport ∨ (l.stage = .back ∧ l.recalled = none)

/-- Its alarm has called the owner before it was back. -/
def Lookout.Late (l : Lookout) : Prop := l.announced = true ∧ l.recalled = none ∧ l.stage ≠ .back

/-- It is recalled and does not know: nobody has given it its turn. -/
def Lookout.Stuck (l : Lookout) : Prop :=
  l.recalled.isSome = true ∧ (l.stage = .awaitingEnd ∨ l.stage = .awaitingReport)

/-- It is still there, in whatever stage. -/
def Lookout.StaysIn (k : Lookout) (lookouts : List Lookout) : Prop :=
  ∃ l ∈ lookouts, l.number = k.number ∧ l.owner = k.owner ∧ (l.Stuck → k.Stuck)

/-- The event under way is the turn of the party. -/
def TurnOf (past : List Step) (party : Party) : Prop :=
  ∃ step earlier, past = step :: earlier ∧ step.event = .turn party

/-- Lookouts have numbers of their own, of those that were given away, and one that is to be told of
the end of its engine is still waiting for it. -/
structure Pool.Listening (pool : Pool) : Prop where
  distinct : (pool.lookouts.map (·.number)).Nodup
  numbered : ∀ l ∈ pool.lookouts, l.number ≤ pool.numbers
  known : ∀ entry ∈ pool.listeners, ∀ number, entry.2 = .lookout number → number ≤ pool.numbers
  waits : ∀ entry ∈ pool.listeners, ∀ l ∈ pool.lookouts, entry.2 = .lookout l.number →
    l.stage = .awaitingEnd ∧ l.pid = entry.1

/-- Whether an alarm may have called the owner of a lookout. -/
def Excused (settings : Settings) (past : List Step) : Party → Prop
  | .render task => Overdue settings past task
  | .stopper _ => True

/-- Whether an abort may have recalled a lookout of the owner. -/
def Blamed (stoppers : List Stopper) (past : List Step) : Party → Prop
  | .render task => Aborted past task
  | .stopper number =>
    ∀ s ∈ stoppers, s.number = number → ∃ task, Scene.worksIn task s = true ∧ Aborted past task

/-- What a lookout can become; the pool is the one in which it has become so. -/
structure Follows (past : List Step) (pool : Pool) (k l : Lookout) : Prop where
  number : l.number = k.number
  pid : l.pid = k.pid
  owner : l.owner = k.owner
  settled : l.Settled → k.Settled ∨ pool.isRunning l.pid = false
  late : l.Late → k.Late ∨ Excused pool.settings past l.owner
  recalled : l.recalled = k.recalled ∨
    (l.recalled = some .timeUp ∧ (k.Late ∨ Excused pool.settings past l.owner)) ∨
    (l.recalled = some .aborted ∧ Blamed pool.stoppers past l.owner)

theorem Lookout.StaysIn.of_mem {l : Lookout} {lookouts : List Lookout} (hl : l ∈ lookouts) :
    l.StaysIn lookouts :=
  ⟨l, hl, rfl, rfl, id⟩

theorem Lookout.not_stuck_of_stage {l : Lookout} (h : l.stage = .called ∨ l.stage = .back) :
    ¬ l.Stuck := by
  rintro ⟨_, hend | hreport⟩
  · rw [hend] at h
    simp at h
  · rw [hreport] at h
    simp at h

theorem Follows.refl (past : List Step) (pool : Pool) (l : Lookout) : Follows past pool l l :=
  ⟨rfl, rfl, rfl, .inl, .inl, .inl rfl⟩

/-- A scene that comes from another by what lookouts and engines do. -/
structure Stirs (past : List Step) (s t : Scene) : Prop where
  pool : t.pool = { s.pool with
    lookouts := t.pool.lookouts
    processes := t.pool.processes
    listeners := t.pool.listeners }
  files : t.world.files = s.world.files
  spawned : t.world.spawned = s.world.spawned
  pids : t.pool.processes.map (·.pid) = s.pool.processes.map (·.pid)
  running : ∀ pid, t.pool.isRunning pid = true → s.pool.isRunning pid = true
  lookouts : ∀ l ∈ t.pool.lookouts, ∃ k ∈ s.pool.lookouts, Follows past t.pool k l
  /-- Only its owner takes notice of a lookout, and only in its turn. -/
  kept : ∀ k ∈ s.pool.lookouts, TurnOf past k.owner ∨ k.StaysIn t.pool.lookouts
  listening : t.pool.Listening

namespace Stirs

variable {past : List Step} {s t u : Scene}

section Fields

variable (h : Stirs past s t)

include h

theorem settings : t.pool.settings = s.pool.settings := by rw [h.pool]

theorem free : t.pool.free = s.pool.free := by rw [h.pool]

theorem inFlight : t.pool.inFlight = s.pool.inFlight := by rw [h.pool]

theorem active : t.pool.active = s.pool.active := by rw [h.pool]

theorem flagged : t.pool.flagged = s.pool.flagged := by rw [h.pool]

theorem renders : t.pool.renders = s.pool.renders := by rw [h.pool]

theorem stoppers : t.pool.stoppers = s.pool.stoppers := by rw [h.pool]

theorem numbers : t.pool.numbers = s.pool.numbers := by rw [h.pool]

theorem ended : t.pool.ended = s.pool.ended := by rw [h.pool]

theorem statuses : t.pool.statuses = s.pool.statuses := by rw [h.pool]

theorem stays_ended {pid : Nat} (hpid : s.pool.isRunning pid = false) :
    t.pool.isRunning pid = false := by
  cases hrun : t.pool.isRunning pid with
  | false => rfl
  | true => rw [h.running pid hrun] at hpid; contradiction

end Fields

theorem trans (h : Stirs past s t) (k : Stirs past t u) : Stirs past s u where
  pool := by rw [k.pool, h.pool]
  files := k.files.trans h.files
  spawned := k.spawned.trans h.spawned
  pids := k.pids.trans h.pids
  running pid hrun := h.running pid (k.running pid hrun)
  listening := k.listening
  kept := by
    intro j hj
    rcases h.kept j hj with hturn | ⟨l, hl, hnumber, howner, hstuck⟩
    · exact .inl hturn
    · rcases k.kept l hl with hturn | ⟨m, hm, hlast, hsame, hstill⟩
      · exact .inl (howner ▸ hturn)
      · exact .inr ⟨m, hm, hlast.trans hnumber, hsame.trans howner,
          fun hm => hstuck (hstill hm)⟩
  lookouts := by
    intro m hm
    obtain ⟨l, hl, later⟩ := k.lookouts m hm
    obtain ⟨j, hj, first⟩ := h.lookouts l hl
    have howner : m.owner = l.owner := later.owner
    have excused : Excused t.pool.settings past l.owner → Excused u.pool.settings past m.owner := by
      rw [k.settings, howner]
      exact id
    refine ⟨j, hj, later.number.trans first.number, later.pid.trans first.pid,
      howner.trans first.owner, ?_, ?_, ?_⟩
    · intro hsettled
      rcases later.settled hsettled with hsettled | hdown
      · rcases first.settled hsettled with hsettled | hdown
        · exact .inl hsettled
        · exact .inr (k.stays_ended (later.pid ▸ hdown))
      · exact .inr hdown
    · intro hlate
      rcases later.late hlate with hlate | hexcused
      · exact (first.late hlate).imp_right excused
      · exact .inr hexcused
    · rcases later.recalled with hsame | ⟨htime, hwhy⟩ | hblamed
      · rw [hsame]
        rcases first.recalled with hold | ⟨htime, hwhy⟩ | ⟨haborted, hblamed⟩
        · exact .inl hold
        · exact .inr (.inl ⟨htime, hwhy.imp_right excused⟩)
        · refine .inr (.inr ⟨haborted, ?_⟩)
          rwa [howner, k.stoppers]
      · refine .inr (.inl ⟨htime, ?_⟩)
        rcases hwhy with hlate | hexcused
        · exact (first.late hlate).imp_right excused
        · exact .inr hexcused
      · exact .inr (.inr hblamed)

end Stirs

namespace Pool

theorem lookout?_mem {pool : Pool} {number : Nat} {l : Lookout}
    (h : pool.lookout? number = some l) : l ∈ pool.lookouts ∧ l.number = number :=
  ⟨List.mem_of_find?_eq_some h, by simpa using List.find?_some h⟩

theorem process?_pid {pool : Pool} {pid : Nat} {process : Engine.Process}
    (h : pool.process? pid = some process) : process.pid = pid := by
  simpa using List.find?_some h

theorem isRunning_eq {pool : Pool} {pid : Nat} {process : Engine.Process}
    (h : pool.process? pid = some process) : pool.isRunning pid = process.isRunning := by
  simp [isRunning, h]

theorem mem_setLookout {pool : Pool} {k l : Lookout} (h : k ∈ (pool.setLookout l).lookouts) :
    k = l ∨ (k ∈ pool.lookouts ∧ k.number ≠ l.number) := by
  obtain ⟨j, hj, hk⟩ := List.mem_map.mp h
  by_cases hnumber : j.number = l.number
  · exact .inl (by rw [← hk, if_pos hnumber])
  · rw [if_neg hnumber] at hk
    exact .inr ⟨hk ▸ hj, hk ▸ hnumber⟩

theorem numbers_setLookout (pool : Pool) (l : Lookout) :
    (pool.setLookout l).lookouts.map (·.number) = pool.lookouts.map (·.number) := by
  rw [setLookout, List.map_map]
  apply List.map_congr_left
  intro k _
  by_cases hnumber : k.number = l.number <;> simp [hnumber]

theorem Listening.eq_of_number {pool : Pool} (h : pool.Listening) {k l : Lookout}
    (hk : k ∈ pool.lookouts) (hl : l ∈ pool.lookouts) (hnumber : k.number = l.number) : k = l :=
  List.inj_on_of_nodup_map h.distinct hk hl hnumber

theorem process?_setProcess (pool : Pool) (process : Engine.Process) (pid : Nat) :
    (pool.setProcess process).process? pid
      = (pool.process? pid).map fun p => if p.pid = process.pid then process else p := by
  rw [process?, setProcess, List.find?_map, process?]
  congr 2
  funext p
  by_cases h : p.pid = process.pid <;> simp [h]

theorem isRunning_setProcess {pool : Pool} {old new : Engine.Process} {pid : Nat}
    (hold : pool.process? new.pid = some old) (h : new.isRunning = true → old.isRunning = true)
    (hpid : (pool.setProcess new).isRunning pid = true) : pool.isRunning pid = true := by
  rw [isRunning, process?_setProcess] at hpid
  rw [isRunning]
  cases hprocess : pool.process? pid with
  | none => simp [hprocess] at hpid
  | some p =>
    by_cases hsame : p.pid = new.pid
    · have hp : pool.process? p.pid = some p := by rwa [process?_pid hprocess]
      rw [hsame, hold] at hp
      obtain rfl := Option.some.inj hp
      simpa [hprocess, hsame] using h (by simpa [hprocess, hsame] using hpid)
    · simpa [hprocess, hsame] using hpid

end Pool

def Scene.Finding.cause? : Scene.Finding → Option Recall
  | .seen => none
  | .recalled cause => some cause

/-- No lookout of the number is back, and none listens: it can be given its turn. -/
def Pool.Waking (pool : Pool) (number : Nat) : Prop :=
  ∀ l ∈ pool.lookouts, l.number = number →
    l.stage ≠ .back ∧ ∀ entry ∈ pool.listeners, entry.2 ≠ .lookout number

theorem Follows.elsewhere {past : List Step} {p q : Pool} {k l : Lookout} (h : Follows past p k l)
    (hsettings : q.settings = p.settings) (hstoppers : q.stoppers = p.stoppers)
    (hrunning : p.isRunning l.pid = false → q.isRunning l.pid = false) : Follows past q k l where
  number := h.number
  pid := h.pid
  owner := h.owner
  settled hsettled := (h.settled hsettled).imp_right hrunning
  late := by rw [hsettings]; exact h.late
  recalled := by rw [hsettings, hstoppers]; exact h.recalled

namespace Stirs

variable {past : List Step} {s t : Scene}

theorem of_same (hlistening : s.pool.Listening) (hpool : t.pool = s.pool)
    (hfiles : t.world.files = s.world.files) (hspawned : t.world.spawned = s.world.spawned) :
    Stirs past s t where
  pool := by rw [hpool]
  files := hfiles
  spawned := hspawned
  pids := by rw [hpool]
  running pid hrun := by rw [hpool] at hrun; exact hrun
  lookouts l hl := by
    rw [hpool] at hl
    exact ⟨l, hl, Follows.refl past t.pool l⟩
  kept l hl := .inr (.of_mem (by rw [hpool]; exact hl))
  listening := by
    rw [hpool]
    exact ⟨hlistening.distinct, hlistening.numbered, hlistening.known, hlistening.waits⟩

theorem refl (h : s.pool.Listening) : Stirs past s s := of_same h rfl rfl rfl

theorem ask (h : s.pool.Listening) (posting : Posting) : Stirs past s (s.ask posting) :=
  of_same h rfl rfl rfl

theorem post (h : s.pool.Listening) (event : Event) : Stirs past s (s.post event) :=
  of_same h rfl rfl rfl

/-- A lookout goes on. It listens only as long as it waits for the end of its engine. -/
theorem setLookout {k l : Lookout} (h : s.pool.Listening) (hk : k ∈ s.pool.lookouts)
    (follows : Follows past s.pool k l)
    (hstuck : l.Stuck → k.Stuck)
    (hl : ∀ entry ∈ s.pool.listeners, entry.2 = .lookout l.number →
      l.stage = .awaitingEnd ∧ l.pid = entry.1) :
    Stirs past s (s.onPool (·.setLookout l)) where
  pool := rfl
  files := rfl
  spawned := rfl
  pids := rfl
  running _ hrun := hrun
  lookouts := by
    intro m hm
    rcases Pool.mem_setLookout hm with rfl | ⟨hmem, _⟩
    · exact ⟨k, hk, follows.elsewhere rfl rfl id⟩
    · exact ⟨m, hmem, Follows.refl past _ m⟩
  kept := by
    intro m hm
    by_cases hnumber : m.number = l.number
    · obtain rfl := h.eq_of_number hm hk (hnumber.trans follows.number)
      refine .inr ⟨l, List.mem_map.mpr ⟨m, hm, if_pos hnumber⟩, hnumber.symm, follows.owner, hstuck⟩
    · exact .inr (.of_mem (List.mem_map.mpr ⟨m, hm, if_neg hnumber⟩))
  listening := by
    refine ⟨?_, ?_, h.known, ?_⟩
    · exact (Pool.numbers_setLookout s.pool l).symm ▸ h.distinct
    · intro m hm
      rcases Pool.mem_setLookout hm with rfl | ⟨hmem, _⟩
      · rw [follows.number]
        exact h.numbered k hk
      · exact h.numbered m hmem
    · intro entry hentry m hm hnumber
      rcases Pool.mem_setLookout hm with rfl | ⟨hmem, _⟩
      · exact hl entry hentry hnumber
      · exact h.waits entry hentry m hmem hnumber

theorem setProcess {old new : Engine.Process} (h : s.pool.Listening)
    (hold : s.pool.process? new.pid = some old)
    (hnew : new.isRunning = true → old.isRunning = true) :
    Stirs past s (s.onPool (·.setProcess new)) where
  pool := rfl
  files := rfl
  spawned := rfl
  pids := by
    change (s.pool.processes.map _).map _ = _
    rw [List.map_map]
    apply List.map_congr_left
    intro p _
    by_cases hsame : p.pid = new.pid <;> simp [hsame]
  running pid hrun := Pool.isRunning_setProcess hold hnew hrun
  lookouts l hl := ⟨l, hl, Follows.refl past _ l⟩
  kept _ hl := .inr (.of_mem hl)
  listening := ⟨h.distinct, h.numbered, h.known, h.waits⟩

theorem setListeners {listeners : List (Nat × Listener)}
    (h : ({ s.pool with listeners := listeners } : Pool).Listening) :
    Stirs past s (s.onPool fun p => { p with listeners := listeners }) where
  pool := rfl
  files := rfl
  spawned := rfl
  pids := rfl
  running _ hrun := hrun
  lookouts l hl := ⟨l, hl, Follows.refl past _ l⟩
  kept _ hl := .inr (.of_mem hl)
  listening := h

theorem filterListeners (h : s.pool.Listening) (keep : Nat × Listener → Bool) :
    Stirs past s (s.onPool fun p => { p with listeners := p.listeners.filter keep }) :=
  setListeners
    { distinct := h.distinct
      numbered := h.numbered
      known := fun entry hentry => h.known entry (List.mem_filter.mp hentry).1
      waits := fun entry hentry => h.waits entry (List.mem_filter.mp hentry).1 }

theorem unlisten (h : s.pool.Listening) (listener : Listener) :
    Stirs past s (s.onPool (·.unlisten listener)) :=
  filterListeners h _

section Lookouts

variable {l : Lookout} (h : s.pool.Listening) (hl : l ∈ s.pool.lookouts)

include h hl

theorem not_listening (hstage : l.stage ≠ .awaitingEnd) :
    ∀ entry ∈ s.pool.listeners, entry.2 ≠ .lookout l.number :=
  fun entry hentry hnumber => hstage (h.waits entry hentry l hl hnumber).1

theorem comeBack (hstage : l.stage = .called)
    (hnews : l.recalled = none → s.pool.isRunning l.pid = false) : Stirs past s (s.comeBack l) := by
  have quiet := not_listening h hl (by rw [hstage]; decide)
  have back : Stirs past s (s.onPool (·.setLookout { l with stage := .back })) := by
    refine setLookout h hl ⟨rfl, rfl, rfl, ?_, ?_, .inl rfl⟩
      (fun hstuck => absurd hstuck (Lookout.not_stuck_of_stage (.inr rfl)))
      fun entry hentry hnumber => absurd hnumber (quiet entry hentry)
    · rintro (hreport | ⟨_, hrecalled⟩)
      · simp at hreport
      · exact .inr (hnews hrecalled)
    · rintro ⟨_, _, hback⟩
      exact absurd rfl hback
  exact back.trans (post back.listening _)

theorem findEnded (hstage : l.stage = .called) (hfree : l.recalled = none)
    {process : Engine.Process}
    (hprocess : s.pool.process? l.pid = some process) (hended : process.isRunning = false) :
    Stirs past s (s.findEnded l process) := by
  have down : s.pool.isRunning l.pid = false := (Pool.isRunning_eq hprocess).trans hended
  rw [Scene.findEnded]
  split
  · exact comeBack h hl hstage fun _ => down
  · split
    · have hpid : process.atReportEnd.pid = process.pid := by
        rw [Engine.Process.atReportEnd, hended]
        rfl
      have hsame : process.atReportEnd.isRunning = process.isRunning := by
        rw [Engine.Process.atReportEnd, hended]
        exact hended
      have hold : s.pool.process? process.atReportEnd.pid = some process := by
        rwa [hpid, Pool.process?_pid hprocess]
      have read : Stirs past s (s.onPool (·.setProcess process.atReportEnd)) :=
        setProcess h hold (by rw [hsame]; exact id)
      exact read.trans (comeBack read.listening hl hstage fun _ => read.stays_ended down)
    · have quiet := not_listening h hl (by rw [hstage]; decide)
      have waits : Stirs past s (s.onPool (·.setLookout { l with stage := .awaitingReport })) := by
        refine setLookout h hl ⟨rfl, rfl, rfl, fun _ => .inr down, ?_, .inl rfl⟩
          (fun ⟨hrecalled, _⟩ => by rw [hfree] at hrecalled; contradiction)
          fun entry hentry hnumber => absurd hnumber (quiet entry hentry)
        rintro ⟨hannounced, hrecalled, _⟩
        exact .inl ⟨hannounced, hrecalled, by rw [hstage]; decide⟩
      exact waits.trans (ask waits.listening _)

theorem look : Stirs past s (s.look l) := by
  rw [Scene.look]
  by_cases hstage : l.stage = .called
  · rw [if_neg (not_not_intro hstage)]
    split
    · next hrecalled =>
      refine comeBack h hl hstage fun hnone => ?_
      rw [hnone] at hrecalled
      contradiction
    · next hrecalled =>
      have hfree : l.recalled = none := by simpa using hrecalled
      split
      · exact refl h
      · next process hprocess =>
        split
        · have quiet := not_listening h hl (by rw [hstage]; decide)
          have waits : Stirs past s (s.onPool (·.setLookout { l with stage := .awaitingEnd })) := by
            refine setLookout h hl ⟨rfl, rfl, rfl, ?_, ?_, .inl rfl⟩
              (fun ⟨hsome, _⟩ => by rw [hfree] at hsome; contradiction)
              fun entry hentry hnumber => absurd hnumber (quiet entry hentry)
            · rintro (hreport | ⟨hback, _⟩)
              · simp at hreport
              · simp at hback
            · rintro ⟨hannounced, hrecalled, _⟩
              exact .inl ⟨hannounced, hrecalled, by rw [hstage]; decide⟩
          refine waits.trans (setListeners
            ⟨waits.listening.distinct, waits.listening.numbered, ?_, ?_⟩)
          · intro entry hentry number hnumber
            rcases List.mem_append.mp hentry with hentry | hentry
            · exact h.known entry hentry number hnumber
            · obtain rfl := List.mem_singleton.mp hentry
              rw [← Listener.lookout.inj hnumber]
              exact h.numbered l hl
          intro entry hentry m hm hnumber
          rcases List.mem_append.mp hentry with hentry | hentry
          · exact waits.listening.waits entry hentry m hm hnumber
          · obtain rfl := List.mem_singleton.mp hentry
            have hsame : l.number = m.number := Listener.lookout.inj hnumber
            rcases Pool.mem_setLookout hm with rfl | ⟨_, hother⟩
            · exact ⟨rfl, rfl⟩
            · exact absurd hsame.symm hother
        · next hended => exact findEnded h hl hstage hfree hprocess (by simpa using hended)
  · rw [if_pos hstage]
    exact refl h

theorem callOwner (hwhy : l.stage = .back ∨ Excused s.pool.settings past l.owner) :
    Stirs past s (s.callOwner l) := by
  rw [Scene.callOwner]
  split
  · exact refl h
  · have told : Stirs past s (s.onPool (·.setLookout { l with announced := true })) := by
      refine setLookout h hl ⟨rfl, rfl, rfl, .inl, ?_, .inl rfl⟩ id fun entry hentry hnumber =>
        h.waits entry hentry l hl hnumber
      rintro ⟨_, _, hstage⟩
      rcases hwhy with hback | hexcused
      · exact absurd hback hstage
      · exact .inr hexcused
    exact told.trans (post told.listening _)

theorem announce : Stirs past s (s.announce l) := by
  rw [Scene.announce]
  split
  · next hback => exact callOwner h hl (.inl hback)
  · exact refl h

theorem alarm (hexcused : Excused s.pool.settings past l.owner) : Stirs past s (s.alarm l) := by
  rw [Scene.alarm]
  split
  · exact refl h
  · exact callOwner h hl (.inr hexcused)

theorem dismiss (hturn : TurnOf past l.owner) : Stirs past s (s.dismiss l) := by
  have drop : Stirs past s (s.onPool (·.dropLookout l.number)) :=
    { pool := rfl
      files := rfl
      spawned := rfl
      pids := rfl
      running := fun _ hrun => hrun
      lookouts := fun m hm => ⟨m, (List.mem_filter.mp hm).1, Follows.refl past _ m⟩
      kept := by
        intro m hm
        by_cases hnumber : m.number = l.number
        · obtain rfl := h.eq_of_number hm hl hnumber
          exact .inl hturn
        · exact .inr (.of_mem (List.mem_filter.mpr ⟨hm, decide_eq_true hnumber⟩))
      listening :=
        { distinct := h.distinct.sublist (List.filter_sublist.map _)
          numbered := fun m hm => h.numbered m (List.mem_filter.mp hm).1
          known := h.known
          waits := fun entry hentry m hm hnumber =>
            h.waits entry hentry m (List.mem_filter.mp hm).1 hnumber } }
  exact drop.trans (ask drop.listening _)

theorem callBack {cause : Recall} (hstage : l.stage ≠ .back)
    (hwhy : (cause = .timeUp ∧ (l.Late ∨ Excused s.pool.settings past l.owner)) ∨
      (cause = .aborted ∧ Blamed s.pool.stoppers past l.owner)) :
    Stirs past s (s.callBack l cause) := by
  -- Wherever it stood, the lookout has its turn next.
  have follows : Follows past s.pool l
      { l with stage := .called, recalled := some cause, announced := false } := by
    refine ⟨rfl, rfl, rfl, ?_, ?_, ?_⟩
    · rintro (hreport | ⟨hback, _⟩)
      · simp at hreport
      · simp at hback
    · rintro ⟨hannounced, _, _⟩
      simp at hannounced
    · rcases hwhy with ⟨rfl, htime⟩ | ⟨rfl, hblamed⟩
      · exact .inr (.inl ⟨rfl, htime⟩)
      · exact .inr (.inr ⟨rfl, hblamed⟩)
  have ready : ¬ ({ l with stage := .called, recalled := some cause, announced := false }
      : Lookout).Stuck := Lookout.not_stuck_of_stage (.inl rfl)
  rw [Scene.callBack]
  cases hat : l.stage with
  | called =>
    have quiet := not_listening h hl (by rw [hat]; decide)
    exact setLookout h hl follows (absurd · ready) fun entry hentry hnumber =>
      absurd hnumber (quiet entry hentry)
  | awaitingEnd =>
    have deaf : Stirs past s (s.onPool (·.unlisten (.lookout l.number))) :=
      unlisten h _
    have called := setLookout deaf.listening hl (follows.elsewhere rfl rfl id) (absurd · ready)
      fun entry hentry hnumber =>
        absurd hnumber (by simpa using (List.mem_filter.mp hentry).2)
    exact (deaf.trans called).trans (post called.listening _)
  | awaitingReport =>
    have quiet := not_listening h hl (by rw [hat]; decide)
    have asked : Stirs past s (s.ask (.callOff (.drained l.pid))) := ask h _
    have called := setLookout asked.listening hl (follows.elsewhere rfl rfl id) (absurd · ready)
      fun entry hentry hnumber => absurd hnumber (quiet entry hentry)
    exact (asked.trans called).trans (post called.listening _)
  | back => exact absurd hat hstage

end Lookouts

theorem consult_none (h : s.pool.Listening) {number : Nat}
    (hconsult : s.consult number = (t, none)) : Stirs past s t := by
  rw [Scene.consult] at hconsult
  split at hconsult
  · obtain rfl := congrArg Prod.fst hconsult
    exact refl h
  · next l hlookout =>
    have hl := (Pool.lookout?_mem hlookout).1
    by_cases hannounced : l.announced = true
    · simp only [hannounced, Bool.not_true, Bool.false_eq_true, if_false] at hconsult
      split at hconsult
      · simp at hconsult
      · simp at hconsult
      · next hrecalled hstage =>
        obtain rfl := congrArg Prod.fst hconsult
        have hback : l.stage ≠ .back := hstage
        exact callBack h hl hback (.inl ⟨rfl, .inl ⟨hannounced, hrecalled, hback⟩⟩)
      · obtain rfl := congrArg Prod.fst hconsult
        exact refl h
    · simp only [hannounced, Bool.not_false, if_true] at hconsult
      obtain rfl := congrArg Prod.fst hconsult
      exact refl h

/-- A finding comes from a lookout that is back and announced, and is done with. -/
theorem consult_some {number : Nat} {finding : Scene.Finding}
    (hconsult : s.consult number = (t, some finding)) :
    ∃ l, s.pool.lookout? number = some l ∧ l.announced = true ∧ l.stage = .back ∧
      l.recalled = finding.cause? ∧ t = s.dismiss l := by
  rw [Scene.consult] at hconsult
  split at hconsult
  · simp at hconsult
  · next l hlookout =>
    by_cases hannounced : l.announced = true
    · simp only [hannounced, Bool.not_true, Bool.false_eq_true, if_false] at hconsult
      split at hconsult
      · next hback hrecalled =>
        obtain ⟨rfl, hfinding⟩ := Prod.mk.inj hconsult
        obtain rfl := Option.some.inj hfinding
        exact ⟨l, hlookout, hannounced, hback, hrecalled, rfl⟩
      · next cause hback hrecalled =>
        obtain ⟨rfl, hfinding⟩ := Prod.mk.inj hconsult
        obtain rfl := Option.some.inj hfinding
        exact ⟨l, hlookout, hannounced, hback, hrecalled, rfl⟩
      · simp at hconsult
      · simp at hconsult
    · simp [hannounced] at hconsult

theorem abortWait (h : s.pool.Listening) {number : Nat}
    (hblamed : ∀ l ∈ s.pool.lookouts, l.number = number → Blamed s.pool.stoppers past l.owner) :
    Stirs past s (s.abortWait number) := by
  rw [Scene.abortWait]
  split
  · exact refl h
  · next l hlookout =>
    obtain ⟨hl, hnumber⟩ := Pool.lookout?_mem hlookout
    split
    · exact refl h
    · next hstage => exact callBack h hl hstage (.inr ⟨rfl, hblamed l hl hnumber⟩)

theorem tell (h : s.pool.Listening) {listener : Listener}
    (hwaking : ∀ number, listener = .lookout number → s.pool.Waking number) :
    Stirs past s (s.tell listener) := by
  cases listener with
  | stopper number => exact post h _
  | lookout number =>
    rw [Scene.tell]
    split
    · next l hlookout =>
      obtain ⟨hl, hnumber⟩ := Pool.lookout?_mem hlookout
      obtain ⟨hstage, hquiet⟩ := hwaking number rfl l hl hnumber
      have woken : Stirs past s (s.onPool (·.setLookout { l with stage := .called })) := by
        refine setLookout h hl ⟨rfl, rfl, rfl, ?_, ?_, .inl rfl⟩
          (fun hstuck => absurd hstuck (Lookout.not_stuck_of_stage (.inl rfl)))
          fun entry hentry hentered => absurd (hnumber ▸ hentered) (hquiet entry hentry)
        · rintro (hreport | ⟨hback, _⟩)
          · simp at hreport
          · simp at hback
        · rintro ⟨hannounced, hrecalled, _⟩
          exact .inl ⟨hannounced, hrecalled, hstage⟩
      exact woken.trans (post woken.listening _)
    · exact refl h

theorem waking_tell {number : Nat} (h : s.pool.Waking number) (listener : Listener) :
    (s.tell listener).pool.Waking number := by
  cases listener with
  | stopper other => exact h
  | lookout other =>
    rw [Scene.tell]
    split
    · next k hlookout =>
      obtain ⟨hk, _⟩ := Pool.lookout?_mem hlookout
      intro l hl hnumber
      rcases Pool.mem_setLookout hl with rfl | ⟨hmem, _⟩
      · exact ⟨by simp, (h k hk hnumber).2⟩
      · exact h l hmem hnumber
    · exact h

theorem tellAll {listeners : List Listener} (h : s.pool.Listening)
    (hwaking : ∀ number, .lookout number ∈ listeners → s.pool.Waking number) :
    Stirs past s (listeners.foldl Scene.tell s) := by
  induction listeners generalizing s with
  | nil => exact refl h
  | cons listener rest ih =>
    have first : Stirs past s (s.tell listener) :=
      tell h fun number hsame => hwaking number (hsame ▸ List.mem_cons_self)
    exact first.trans (ih first.listening fun number hmem =>
      waking_tell (hwaking number (List.mem_cons_of_mem listener hmem)) listener)

theorem exit (h : s.pool.Listening) (pid : Nat) (code : Int) : Stirs past s (s.exit pid code) := by
  rw [Scene.exit]
  split
  · exact refl h
  · next process hprocess =>
    split
    · exact refl h
    · next hrunning =>
      have hended : (process.ended code).isRunning = false := by
        have hrun : process.isRunning = true := by simpa using hrunning
        rw [Engine.Process.ended, if_pos hrun]
        rfl
      have hpid : (process.ended code).pid = process.pid := by
        rw [Engine.Process.ended]
        split <;> rfl
      have hold : s.pool.process? (process.ended code).pid = some process := by
        rwa [hpid, Pool.process?_pid hprocess]
      have down : Stirs past s (s.onPool (·.setProcess (process.ended code))) :=
        setProcess h hold (by rw [hended]; exact fun hrun => by contradiction)
      have deaf : Stirs past s (s.onPool fun p =>
          { p.setProcess (process.ended code) with
            listeners := p.listeners.filter (·.1 ≠ pid) }) :=
        down.trans (filterListeners down.listening _)
      refine deaf.trans (tellAll deaf.listening ?_)
      intro number hmem l hl hnumber
      obtain ⟨entry, hentry, hlistener⟩ := List.mem_map.mp hmem
      rw [List.mem_filter, decide_eq_true_eq] at hentry
      have waits := h.waits entry hentry.1 l hl (by rw [hlistener, hnumber])
      refine ⟨by rw [waits.1]; decide, ?_⟩
      intro other hother hsame
      obtain ⟨hmember, helsewhere⟩ := List.mem_filter.mp hother
      have same := (h.waits other hmember l hl (by rw [hsame, hnumber])).2
      exact absurd (by rw [← same, waits.2, hentry.2]) (of_decide_eq_true helsewhere)

theorem send (h : s.pool.Listening) (pid : Nat) (signal : Engine.Signal) :
    Stirs past s (s.send pid signal) := by
  rw [Scene.send]
  split
  · exact refl h
  · next process _ =>
    have logged : Stirs past s (s.logSignal pid signal process.hears) := of_same h rfl rfl rfl
    dsimp only
    split
    · exact logged
    · exact logged.trans (exit logged.listening pid _)
    · exact logged.trans (ask logged.listening _)

theorem scheduleExit (h : s.pool.Listening) (pid : Nat) (script : Engine.Script) :
    Stirs past s (s.scheduleExit pid script) := by
  rw [Scene.scheduleExit]
  split
  · exact refl h
  · exact exit h pid _
  · exact ask h _

theorem drain (h : s.pool.Listening) (pid : Nat) : Stirs past s (s.drain pid) := by
  rw [Scene.drain]
  split
  · exact refl h
  · next process hprocess =>
    have hpid : process.atReportEnd.pid = process.pid := by
      rw [Engine.Process.atReportEnd]
      split <;> rfl
    have hsame : process.atReportEnd.isRunning = process.isRunning := by
      rw [Engine.Process.atReportEnd]
      split <;> rfl
    have hold : s.pool.process? process.atReportEnd.pid = some process := by
      rwa [hpid, Pool.process?_pid hprocess]
    have read : Stirs past s (s.onPool (·.setProcess process.atReportEnd)) :=
      setProcess h hold (by rw [hsame]; exact id)
    rw [← List.foldl_map (f := fun l : Lookout => Listener.lookout l.number) (g := Scene.tell)]
    refine read.trans (tellAll read.listening ?_)
    intro number hmem l hl hnumber
    obtain ⟨reader, hreader, hsame⟩ := List.mem_map.mp hmem
    obtain ⟨hreader, hstage⟩ := List.mem_filter.mp hreader
    -- The lookout of that number is the reader itself, which does not listen any more.
    have hreads : reader.number = l.number := (Listener.lookout.inj hsame).trans hnumber.symm
    obtain rfl : reader = l := h.eq_of_number hreader hl hreads
    have hstage : reader.stage = .awaitingReport := by simpa using (Bool.and_eq_true_iff.mp hstage).2
    refine ⟨by rw [hstage]; decide, ?_⟩
    rw [← hnumber]
    exact not_listening read.listening hl (by rw [hstage]; decide)

end Stirs

end ClipRender.Rendering
