import ClipRender.Rendering.Handle
import Mathlib.Data.List.Nodup
import Mathlib.Data.List.Perm.Subperm

set_option autoImplicit false

/-!
The tables of a pool and its slots. Each job in flight has one render, marks and engines belong to
jobs in flight, and each slot is either free or held by a render that has left the line.
-/

namespace ClipRender.Rendering

namespace Render

def holdsSlot (r : Render) : Bool := r.phase ≠ .queued

def hasEngine (r : Render) : Bool :=
  match r.phase with
  | .watching _ _ => true
  | .stopping => true
  | .shielded => true
  | _ => false

theorem holdsSlot_of_hasEngine {r : Render} (h : r.hasEngine = true) : r.holdsSlot = true := by
  cases hphase : r.phase <;> simp [hasEngine, holdsSlot, hphase] at h ⊢

end Render

theorem nodup_map_concat {α β : Type} {key : α → β} {xs : List α} {x : α}
    (hdistinct : (xs.map key).Nodup) (hnew : key x ∉ xs.map key) : ((xs ++ [x]).map key).Nodup := by
  rw [← List.concat_eq_append, List.map_concat]
  exact hdistinct.concat hnew

/-- Whoever is given the next number has it alone. -/
theorem nodup_numbered {α : Type} {number : α → Nat} {xs : List α} {x : α} {last : Nat}
    (hdistinct : (xs.map number).Nodup) (hgiven : ∀ y ∈ xs, number y ≤ last)
    (hnext : number x = last + 1) : ((xs ++ [x]).map number).Nodup := by
  refine nodup_map_concat hdistinct fun hmem => ?_
  obtain ⟨y, hy, hsame⟩ := List.mem_map.mp hmem
  have := hgiven y hy
  omega

namespace Pool

def held (pool : Pool) : Nat := pool.renders.countP Render.holdsSlot

/-- What holds of the tables between two events. In the course of an event there may be a slot more
that is free already although its render has not left. -/
structure Tables (surplus : Nat) (pool : Pool) : Prop where
  tasks : (pool.renders.map (·.task)).Nodup
  ids : (pool.renders.map (·.job.id)).Nodup
  inFlight : ∀ id, id ∈ pool.inFlight ↔ id ∈ pool.renders.map (·.job.id)
  flagged : ∀ id ∈ pool.flagged, id ∈ pool.inFlight
  active : ∀ entry ∈ pool.active, ∃ r ∈ pool.renders, r.job.id = entry.1 ∧ r.hasEngine = true
  activeIds : (pool.active.map (·.1)).Nodup
  slots : pool.free + pool.held = pool.settings.maxRenders.toNat + surplus

def alter (pool : Pool) (task : Nat) (f : Render → Render) : Pool :=
  { pool with renders := pool.renders.map fun r => if r.task = task then f r else r }

theorem mem_alter {pool : Pool} {task : Nat} {f : Render → Render} {x : Render}
    (h : x ∈ (pool.alter task f).renders) :
    (∃ r ∈ pool.renders, r.task = task ∧ x = f r) ∨ (x ∈ pool.renders ∧ x.task ≠ task) := by
  obtain ⟨r, hr, hx⟩ := List.mem_map.mp h
  by_cases htask : r.task = task
  · rw [if_pos htask] at hx
    exact .inl ⟨r, hr, htask, hx.symm⟩
  · rw [if_neg htask] at hx
    subst hx
    exact .inr ⟨hr, htask⟩

theorem mem_alter_of_mem {pool : Pool} {r : Render} (hr : r ∈ pool.renders)
    (f : Render → Render) : f r ∈ (pool.alter r.task f).renders :=
  List.mem_map.mpr ⟨r, hr, if_pos rfl⟩

theorem mem_alter_of_ne {pool : Pool} {r : Render} (hr : r ∈ pool.renders) {task : Nat}
    (htask : r.task ≠ task) (f : Render → Render) : r ∈ (pool.alter task f).renders :=
  List.mem_map.mpr ⟨r, hr, if_neg htask⟩

theorem setPhase_setPhase (pool : Pool) (task : Nat) (first second : Phase) :
    (pool.setPhase task first).setPhase task second = pool.setPhase task second := by
  simp only [setPhase, List.map_map]
  congr 1
  apply List.map_congr_left
  intro r _
  by_cases htask : r.task = task <;> simp [htask]

theorem Tables.elsewhere {surplus : Nat} {p q : Pool} (h : p.Tables surplus)
    (hrenders : q.renders = p.renders) (hinFlight : q.inFlight = p.inFlight)
    (hflagged : q.flagged = p.flagged) (hactive : q.active = p.active) (hfree : q.free = p.free)
    (hsettings : q.settings = p.settings) : q.Tables surplus where
  tasks := by rw [hrenders]; exact h.tasks
  ids := by rw [hrenders]; exact h.ids
  inFlight := by rw [hrenders, hinFlight]; exact h.inFlight
  flagged := by rw [hflagged, hinFlight]; exact h.flagged
  active := by rw [hactive, hrenders]; exact h.active
  activeIds := by rw [hactive]; exact h.activeIds
  slots := by rw [hfree, held, hrenders, hsettings]; exact h.slots

namespace Tables

variable {surplus : Nat} {pool : Pool} (h : pool.Tables surplus)

include h

theorem eq_of_task {r q : Render} (hr : r ∈ pool.renders) (hq : q ∈ pool.renders)
    (htask : r.task = q.task) : r = q :=
  List.inj_on_of_nodup_map h.tasks hr hq htask

theorem eq_of_id {r q : Render} (hr : r ∈ pool.renders) (hq : q ∈ pool.renders)
    (hid : r.job.id = q.job.id) : r = q :=
  List.inj_on_of_nodup_map h.ids hr hq hid

/-- Only one render is altered. -/
theorem mem_altered {r : Render} (hr : r ∈ pool.renders) {f : Render → Render} {x : Render}
    (hx : x ∈ (pool.alter r.task f).renders) :
    x = f r ∨ (x ∈ pool.renders ∧ x.task ≠ r.task) := by
  rcases mem_alter hx with ⟨q, hq, hsame, rfl⟩ | hold
  · exact .inl (by rw [h.eq_of_task hq hr hsame])
  · exact .inr hold

theorem render?_eq {r : Render} (hr : r ∈ pool.renders) : pool.render? r.task = some r := by
  cases hfind : pool.render? r.task with
  | none =>
    have := List.find?_eq_none.mp hfind r hr
    simp at this
  | some q =>
    have hq : q ∈ pool.renders := List.mem_of_find?_eq_some hfind
    have htask : q.task = r.task := by simpa using List.find?_some hfind
    rw [h.eq_of_task hq hr htask]

theorem perm_others {r : Render} (hr : r ∈ pool.renders) :
    pool.renders.Perm (r :: pool.renders.filter (·.task ≠ r.task)) := by
  have others : pool.renders.filter (·.task ≠ r.task) = pool.renders.erase r := by
    rw [(List.Nodup.of_map _ h.tasks).erase_eq_filter]
    apply List.filter_congr
    intro q hq
    by_cases hsame : q = r
    · simp [hsame]
    · have htask : q.task ≠ r.task := fun htask => hsame (h.eq_of_task hq hr htask)
      simp [hsame, htask]
  rw [others]
  exact List.perm_cons_erase hr

theorem held_eq {r : Render} (hr : r ∈ pool.renders) :
    pool.held = (pool.renders.filter (·.task ≠ r.task)).countP Render.holdsSlot
      + if r.holdsSlot then 1 else 0 := by
  rw [held, (h.perm_others hr).countP_eq, List.countP_cons]

theorem perm_alter {r : Render} (hr : r ∈ pool.renders) (f : Render → Render) :
    (pool.alter r.task f).renders.Perm (f r :: pool.renders.filter (·.task ≠ r.task)) := by
  have moved := (h.perm_others hr).map fun q => if q.task = r.task then f q else q
  have others : ((pool.renders.filter (·.task ≠ r.task)).map fun q =>
      if q.task = r.task then f q else q) = pool.renders.filter (·.task ≠ r.task) := by
    conv_rhs => rw [← List.map_id (pool.renders.filter _)]
    apply List.map_congr_left
    intro q hq
    exact if_neg (by simpa using (List.mem_filter.mp hq).2)
  rwa [List.map_cons, if_pos rfl, others] at moved

theorem held_alter {r : Render} (hr : r ∈ pool.renders) (f : Render → Render) :
    (pool.alter r.task f).held + (if r.holdsSlot then 1 else 0)
      = pool.held + if (f r).holdsSlot then 1 else 0 := by
  have before := h.held_eq hr
  have after : (pool.alter r.task f).held
      = (pool.renders.filter (·.task ≠ r.task)).countP Render.holdsSlot
        + if (f r).holdsSlot then 1 else 0 := by
    rw [held, (h.perm_alter hr f).countP_eq, List.countP_cons]
  omega

theorem map_alter {α : Type} {r : Render} (hr : r ∈ pool.renders) {f : Render → Render}
    {key : Render → α} (hkey : key (f r) = key r) :
    (pool.alter r.task f).renders.map key = pool.renders.map key := by
  rw [Pool.alter, List.map_map]
  apply List.map_congr_left
  intro q hq
  by_cases htask : q.task = r.task
  · obtain rfl := h.eq_of_task hq hr htask
    simpa using hkey
  · simp [htask]

/-- A render moves on, and keeps its slot, gets one, or gives one back. -/
theorem alter {r : Render} (hr : r ∈ pool.renders) {f : Render → Render} {free later : Nat}
    (htask : (f r).task = r.task) (hid : (f r).job.id = r.job.id)
    (hengine : r.hasEngine = true → (f r).hasEngine = true)
    (hslots : free + (if (f r).holdsSlot then 1 else 0) + surplus
      = pool.free + (if r.holdsSlot then 1 else 0) + later) :
    ({ pool.alter r.task f with free := free } : Pool).Tables later where
  tasks := by
    change ((pool.alter r.task f).renders.map _).Nodup
    rw [h.map_alter hr htask]
    exact h.tasks
  ids := by
    change ((pool.alter r.task f).renders.map _).Nodup
    rw [h.map_alter hr hid]
    exact h.ids
  inFlight id := by
    change id ∈ pool.inFlight ↔ id ∈ (pool.alter r.task f).renders.map _
    rw [h.map_alter hr hid]
    exact h.inFlight id
  flagged := h.flagged
  active := by
    intro entry hentry
    obtain ⟨q, hq, hname, hstarted⟩ := h.active entry hentry
    by_cases hsame : q.task = r.task
    · obtain rfl := h.eq_of_task hq hr hsame
      exact ⟨f q, mem_alter_of_mem hq f, hid.trans hname, hengine hstarted⟩
    · exact ⟨q, mem_alter_of_ne hq hsame f, hname, hstarted⟩
  activeIds := h.activeIds
  slots := by
    have held := h.held_alter hr f
    have slots := h.slots
    change free + (pool.alter r.task f).held = pool.settings.maxRenders.toNat + later
    omega

theorem setPhase {r : Render} (hr : r ∈ pool.renders) (phase : Phase)
    (hholds : r.holdsSlot = true) (hphase : phase ≠ .queued)
    (hengine : r.hasEngine = true → ({ r with phase := phase } : Render).hasEngine = true) :
    (pool.setPhase r.task phase).Tables surplus := by
  have hold : r.phase ≠ .queued := by simpa [Render.holdsSlot] using hholds
  refine h.alter hr (f := fun r => { r with phase := phase }) rfl rfl hengine ?_
  simp [Render.holdsSlot, hphase, hold]

theorem no_engine {r : Render} (hr : r ∈ pool.renders) (hengine : r.hasEngine = false) :
    ∀ entry ∈ pool.active, entry.1 ≠ r.job.id := by
  intro entry hentry hid
  obtain ⟨q, hq, hname, hstarted⟩ := h.active entry hentry
  obtain rfl := h.eq_of_id hq hr (hname.trans hid)
  rw [hengine] at hstarted
  contradiction

theorem addEngine {r : Render} (hr : r ∈ pool.renders) (hengine : r.hasEngine = true)
    (hnone : ∀ entry ∈ pool.active, entry.1 ≠ r.job.id) (pid : Nat) :
    ({ pool with active := (r.job.id, pid) :: pool.active } : Pool).Tables surplus where
  tasks := h.tasks
  ids := h.ids
  inFlight := h.inFlight
  flagged := h.flagged
  active := by
    intro entry hentry
    rcases List.mem_cons.mp hentry with rfl | hentry
    · exact ⟨r, hr, rfl, hengine⟩
    · exact h.active entry hentry
  activeIds := by
    rw [List.map_cons, List.nodup_cons]
    refine ⟨?_, h.activeIds⟩
    intro hmem
    obtain ⟨entry, hentry, hid⟩ := List.mem_map.mp hmem
    exact hnone entry hentry hid
  slots := h.slots

theorem join {r : Render} {free : Nat} (htask : r.task ∉ pool.renders.map (·.task))
    (hid : r.job.id ∉ pool.inFlight) (hslots : free + (if r.holdsSlot then 1 else 0) = pool.free) :
    ({ pool with
      renders := pool.renders ++ [r]
      inFlight := r.job.id :: pool.inFlight
      free := free } : Pool).Tables surplus where
  tasks := nodup_map_concat h.tasks htask
  ids := nodup_map_concat h.ids fun hmem => hid ((h.inFlight _).mpr hmem)
  inFlight id := by
    rw [List.mem_cons, List.map_append, List.mem_append, h.inFlight id]
    simp [or_comm]
  flagged id hflag := List.mem_cons_of_mem _ (h.flagged id hflag)
  active := by
    intro entry hentry
    obtain ⟨q, hq, hname⟩ := h.active entry hentry
    exact ⟨q, List.mem_append_left _ hq, hname⟩
  activeIds := h.activeIds
  slots := by
    have slots := h.slots
    have held : (pool.renders ++ [r]).countP Render.holdsSlot
        = pool.held + if r.holdsSlot then 1 else 0 := by
      simp [Pool.held, List.countP_append, List.countP_cons]
    change free + (pool.renders ++ [r]).countP Render.holdsSlot
      = pool.settings.maxRenders.toNat + surplus
    omega

theorem flag {id : String} (hid : id ∈ pool.inFlight) : (pool.flag id).Tables surplus := by
  rw [Pool.flag]
  split
  · exact h
  · refine ⟨h.tasks, h.ids, h.inFlight, ?_, h.active, h.activeIds, h.slots⟩
    intro other hother
    rcases List.mem_cons.mp hother with rfl | hother
    · exact hid
    · exact h.flagged other hother

end Tables

section Flag

variable {pool : Pool} {jobId id : String}

theorem flag_eq (pool : Pool) (jobId : String) :
    pool.flag jobId = { pool with flagged := (pool.flag jobId).flagged } := by
  rw [flag]
  split <;> rfl

theorem mem_flagged_flag : id ∈ (pool.flag jobId).flagged ↔ id = jobId ∨ id ∈ pool.flagged := by
  rw [flag]
  split
  · next hold =>
    have hmem : jobId ∈ pool.flagged := by simpa using hold
    exact ⟨.inr, fun h => h.elim (fun hsame => hsame ▸ hmem) fun hflag => hflag⟩
  · exact List.mem_cons

@[simp] theorem active_flag : (pool.flag jobId).active = pool.active := by rw [flag_eq]

@[simp] theorem ended_flag : (pool.flag jobId).ended = pool.ended := by rw [flag_eq]

end Flag

/-- The pool once a free slot has gone to the render that waits longest. -/
def granted (pool : Pool) : Pool :=
  match pool.renders.find? (·.phase = .queued) with
  | none => pool
  | some r => { pool.setPhase r.task .granted with free := pool.free - 1 }

/-- The pool once a slot has been given back. -/
def released (pool : Pool) : Pool := ({ pool with free := pool.free + 1 } : Pool).granted

def withdrawn (pool : Pool) (r : Render) : Pool :=
  { pool with
    renders := pool.renders.filter (·.task ≠ r.task)
    inFlight := pool.inFlight.filter (· ≠ r.job.id)
    flagged := pool.flagged.filter (· ≠ r.job.id)
    active := pool.active.filter (·.1 ≠ r.job.id) }

theorem find?_queued {pool : Pool} {r : Render}
    (h : pool.renders.find? (·.phase = .queued) = some r) :
    r ∈ pool.renders ∧ r.phase = .queued :=
  ⟨List.mem_of_find?_eq_some h, by simpa using List.find?_some h⟩

/-- Who holds a slot does not take part in granting another. -/
theorem mem_granted {pool : Pool} {r : Render} (hr : r ∈ pool.renders)
    (htasks : (pool.renders.map (·.task)).Nodup) (hphase : r.phase ≠ .queued) :
    r ∈ pool.granted.renders := by
  rw [granted]
  split
  · exact hr
  · next q hq =>
    obtain ⟨hmem, hqueued⟩ := find?_queued hq
    refine mem_alter_of_ne hr (fun htask => hphase ?_) _
    rw [List.inj_on_of_nodup_map htasks hr hmem htask, hqueued]

namespace Tables

variable {surplus : Nat} {pool : Pool} (h : pool.Tables surplus)

include h

theorem granted (hfree : 0 < pool.free) : pool.granted.Tables surplus := by
  rw [Pool.granted]
  split
  · exact h
  · next r hr =>
    obtain ⟨hmem, hqueued⟩ := find?_queued hr
    refine h.alter hmem (f := fun r => { r with phase := .granted }) rfl rfl ?_ ?_
    · simp [Render.hasEngine, hqueued]
    · simp only [Render.holdsSlot, hqueued]
      simp
      omega

theorem released : pool.released.Tables (surplus + 1) := by
  have more : ({ pool with free := pool.free + 1 } : Pool).Tables (surplus + 1) := by
    refine ⟨h.tasks, h.ids, h.inFlight, h.flagged, h.active, h.activeIds, ?_⟩
    have slots := h.slots
    change pool.free + 1 + pool.held = pool.settings.maxRenders.toNat + (surplus + 1)
    omega
  exact more.granted (Nat.succ_pos _)

theorem id_not_mem_others {r : Render} (hr : r ∈ pool.renders) :
    r.job.id ∉ (pool.renders.filter (·.task ≠ r.task)).map (·.job.id) := by
  have all := ((h.perm_others hr).map (·.job.id)).nodup_iff.mp h.ids
  rw [List.map_cons, List.nodup_cons] at all
  exact all.1

theorem withdrawn {r : Render} (hr : r ∈ pool.renders) {later : Nat}
    (hsurplus : surplus = later + if r.holdsSlot then 1 else 0) :
    (pool.withdrawn r).Tables later where
  tasks := h.tasks.sublist (List.filter_sublist.map _)
  ids := h.ids.sublist (List.filter_sublist.map _)
  inFlight id := by
    have all := ((h.perm_others hr).map (·.job.id)).mem_iff (a := id)
    change id ∈ pool.inFlight.filter (· ≠ r.job.id)
      ↔ id ∈ (pool.renders.filter (·.task ≠ r.task)).map (·.job.id)
    rw [List.mem_filter, h.inFlight id, all, List.map_cons, List.mem_cons, decide_eq_true_eq]
    constructor
    · rintro ⟨hown | hother, hne⟩
      · exact absurd hown hne
      · exact hother
    · intro hother
      refine ⟨.inr hother, ?_⟩
      rintro rfl
      exact h.id_not_mem_others hr hother
  flagged id hflag := by
    obtain ⟨hmem, hne⟩ := List.mem_filter.mp hflag
    exact List.mem_filter.mpr ⟨h.flagged id hmem, hne⟩
  active := by
    intro entry hentry
    obtain ⟨hmem, hne⟩ := List.mem_filter.mp hentry
    obtain ⟨q, hq, hname, hstarted⟩ := h.active entry hmem
    refine ⟨q, List.mem_filter.mpr ⟨hq, ?_⟩, hname, hstarted⟩
    rw [decide_eq_true_eq] at hne ⊢
    intro htask
    exact hne (by rw [← hname, h.eq_of_task hq hr htask])
  activeIds := h.activeIds.sublist (List.filter_sublist.map _)
  slots := by
    have held := h.held_eq hr
    have slots := h.slots
    change pool.free + (pool.renders.filter (·.task ≠ r.task)).countP Render.holdsSlot
      = pool.settings.maxRenders.toNat + later
    omega

theorem active_length_le : pool.active.length ≤ pool.held := by
  have holders : pool.active.map (·.1) ⊆ (pool.renders.filter Render.holdsSlot).map (·.job.id) := by
    intro id hid
    obtain ⟨entry, hentry, rfl⟩ := List.mem_map.mp hid
    obtain ⟨r, hr, hname, hstarted⟩ := h.active entry hentry
    exact List.mem_map.mpr
      ⟨r, List.mem_filter.mpr ⟨hr, Render.holdsSlot_of_hasEngine hstarted⟩, hname⟩
  have few := (List.subperm_of_subset h.activeIds holders).length_le
  rwa [List.length_map, List.length_map, ← List.countP_eq_length_filter] at few

end Tables

end Pool

end ClipRender.Rendering
