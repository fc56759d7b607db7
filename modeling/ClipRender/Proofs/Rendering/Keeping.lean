import ClipRender.Proofs.Files.Renaming
import ClipRender.Proofs.Rendering.Publishing

set_option autoImplicit false

/-!
Finished clips stay. Renders touch nothing but what stands under their own names, so a clip whose
task has ended is left alone by all that the service does later.
-/

namespace ClipRender.Rendering

open Files

variable {names : String → Prop} {dir : Path} {renders : List Render} {past : List Step}
  {surplus : Nat} {s t : Scene} {name : String}

/-- A name that none of the renders uses. -/
structure Aside (names : String → Prop) (renders : List Render) (name : String) : Prop where
  named : names name
  proper : Proper name
  free : ∀ r ∈ renders, ¬ r.Owns name

theorem Render.owns_congr {r q : Render} (h : q.ordered = r.ordered) :
    q.Owns name ↔ r.Owns name := by
  rw [Owns, Owns, job_eq h]

namespace Aside

theorem former {remaining : List Render} (h : Aside names renders name)
    (hformer : ∀ q ∈ remaining, ∃ r ∈ renders, r.ordered = q.ordered) :
    Aside names remaining name where
  named := h.named
  proper := h.proper
  free q hq howns := by
    obtain ⟨r, hr, hsame⟩ := hformer q hq
    exact h.free r hr ((Render.owns_congr hsame).mpr howns)

theorem concat (h : Aside names renders name) {r : Render} (hfree : ¬ r.Owns name) :
    Aside names (renders ++ [r]) name where
  named := h.named
  proper := h.proper
  free q hq := by
    rcases List.mem_append.mp hq with hold | hnew
    · exact h.free q hold
    · obtain rfl := List.mem_singleton.mp hnew
      exact hfree

theorem itself?_eq {tree later : Tree} {home : Location} {r : Render}
    (h : Aside names renders name) (hr : r ∈ renders) (hplaced : Placed names dir r)
    (housed : Housed names tree dir home) (hagrees : tree.Agrees r.Owns home later) :
    later.itself? (dir.child name) = tree.itself? (dir.child name) :=
  housed.itself?_congr h.proper (hagrees.mono fun _ => hplaced.owned)
    (hagrees.other (h.free r hr))

end Aside

namespace Tidy

variable (h : Tidy names dir s.world.files s.pool.renders)
  (haside : Aside names s.pool.renders name)

include h haside

theorem advances_itself? (hadvances : Advances past s t) :
    t.world.files.itself? (dir.child name) = s.world.files.itself? (dir.child name) := by
  cases hadvances with
  | stirs hstirs => rw [hstirs.files]
  | moves _ hfiles => rw [hfiles]
  | @spawns r script hr hphase hfiles =>
    obtain ⟨_, hphase⟩ := hphase
    have placed := h.placed r hr
    have free := h.parts r hr (by simp [Render.hasEngine, hphase])
    obtain ⟨home, housed⟩ := h.housed (List.ne_nil_of_mem hr)
    rw [placed.part] at free hfiles
    have agrees := Scene.writeOutput_agrees housed (proper_partName _) free script.output
    rw [hfiles]
    exact haside.itself?_eq hr placed housed (agrees.mono fun _ => .inr)

theorem goes_itself? (order : InOrder past s.world.spawned s.pool) (hgoes : Goes past s t) :
    t.world.files.itself? (dir.child name) = s.world.files.itself? (dir.child name) := by
  induction hgoes with
  | refl => rfl
  | tail hgoes hadvances ih =>
    have still := haside.former fun q hq => (Keeps.goes order hgoes).former hq
    rw [(h.goes order hgoes).advances_itself? still hadvances, ih]

theorem closes_itself? (order : InOrder past s.world.spawned s.pool) {gives : Nat → Prop}
    {event : Event} (hcloses : Closes past gives (Concludes s event) s t) :
    t.world.files.itself? (dir.child name) = s.world.files.itself? (dir.child name) := by
  cases hcloses with
  | goes hgoes => exact h.goes_itself? haside order hgoes
  | answers hgoes _ _ _ hworld =>
    rw [hworld]
    exact h.goes_itself? haside order hgoes
  | @ends before after _ r outcome hgoes hfiles _ hr _ _ _ _ _ hway =>
    have kept := h.goes order hgoes
    rw [hfiles] at kept
    have still := haside.former fun q hq => (Keeps.goes order hgoes).former hq
    have placed := kept.placed r hr
    have free := kept.outputs r hr
    obtain ⟨home, housed⟩ := kept.housed (List.ne_nil_of_mem hr)
    refine still.itself?_eq hr placed housed ?_
    rcases hway with hfails | hconcludes
    · exact (hfails.leftover placed housed free).1
    · exact hconcludes.agrees placed housed free

omit h haside in
/-- An event leaves alone what is there under a name that neither the renders use nor a new job. -/
theorem course_itself? (h : Tidy names s.outputDirectory s.world.files s.pool.renders)
    (haside : Aside names s.pool.renders name) (order : InOrder past s.world.spawned s.pool)
    {event : Event} (hsound : Sound s.world.files)
    (hnew : ∀ task order world job, event = .order task order →
      s.createJob order = (world, .ok job) → s.Receives names job ∧
        (∀ q ∈ s.pool.renders, q.job.outputName ≠ job.outputName) ∧
          name ≠ job.outputName ∧ name ≠ partName job.outputName)
    {entry : Entry} (hthere : s.world.files.itself? (s.outputDirectory.child name) = some entry)
    (hcourse : Course past s event t) :
    t.world.files.itself? (s.outputDirectory.child name) = some entry := by
  have unmade : (s.world.files.ensureDirectories s.outputDirectory.text).1 = s.world.files :=
    hsound.ensureDirectories_above haside.proper hthere
  cases hcourse with
  | quiet _ hcloses => rw [h.closes_itself? haside order hcloses, hthere]
  | @flags task jobId _ hjob hgoes =>
    have still : Aside names (s.onPool (·.flag jobId)).pool.renders name := by
      rw [Scene.onPool, Pool.flag_eq]
      exact haside
    rw [h.flag.goes_itself? still (order.flag hjob) hgoes]
    exact hthere
  | answersAtOnce => exact hthere
  | notFound => exact hthere
  | refused _ _ _ hway =>
    rcases hmade : s.createJob _ with ⟨world, job | job⟩
    · rw [hway.files_unmade hmade, hthere]
    · rw [hway.files_made hmade (hnew _ _ world job rfl hmade).1, unmade, hthere]
  | @joins _ r free u _ _ _ _ hpool hadmits _ _ horder hgoes =>
    obtain ⟨world, hjob⟩ := hadmits.job
    obtain ⟨receives, others, houtput, hpart⟩ := hnew _ _ world _ rfl hjob
    have joined : u.pool.renders = s.pool.renders ++ [r] := by
      rw [hpool]
      rfl
    have still : Aside names u.pool.renders name := by
      rw [joined]
      exact haside.concat (not_or.mpr ⟨houtput, hpart⟩)
    rw [hadmits.directory] at unmade
    have same : u.world.files = s.world.files := unmade
    have tidy := h.joined hsound hadmits receives others joined
    rw [tidy.goes_itself? still horder hgoes, same]
    exact hthere

end Tidy

/-- Between two steps nobody touches what stands at a path. -/
def Step.Leaves (output : Path) (next last : Step) : Prop :=
  next.world.files.itself? output = last.after.world.files.itself? output

namespace Run

variable {settings : Settings} {later : List Step} {step : Step} {pool : Pool} {spawned : Nat}
  {r : Render} {outcome : Outcome} {entry : Entry}

theorem absent (h : Run settings (later ++ step :: past) pool spawned)
    (hr : r ∈ step.before.renders) (hends : step.Ends r.task outcome) :
    ∀ q ∈ pool.renders, q.task ≠ r.task := by
  obtain ⟨_, _, hrun⟩ := h.earlier later
  have ordered := hrun.ordered_before hr
  induction later generalizing pool spawned with
  | nil =>
    obtain ⟨_, _, _, rfl, _⟩ := h.last
    intro q hq
    rcases hrun.fate hr with ⟨_, _, hparts⟩ | hstays
    · obtain ⟨_, _, hother, hsame⟩ := hparts.former hq
      rwa [← Render.task_eq hsame]
    · exact absurd hends (hstays.quiet outcome)
  | cons next rest ih =>
    rw [List.cons_append] at h
    obtain ⟨_, hbefore, _, rfl, _⟩ := h.last
    obtain ⟨first, hfirst, order, hevent⟩ := ordered
    refine h.gone ⟨first, ?_, order, hevent⟩ (ih hbefore)
    exact List.mem_append_right rest (List.mem_cons_of_mem step hfirst)

theorem aside {next : Step} (h : Run settings (next :: (later ++ step :: past)) pool spawned)
    (hu : Undisturbed settings names (next :: (later ++ step :: past)))
    (hr : r ∈ step.before.renders) (hends : step.Ends r.task outcome) :
    Aside names next.before.renders r.job.outputName ∧ ∀ task job, next.Makes task job →
      r.job.outputName ≠ job.outputName ∧ r.job.outputName ≠ partName job.outputName := by
  obtain ⟨_, hbefore, _⟩ := h.last
  obtain ⟨_, _, hstep⟩ := hbefore.earlier later
  obtain ⟨_, hpast, _⟩ := hstep.last
  obtain ⟨recent, begun, earlier, rfl, hadmits, _⟩ := hpast.origin hr
  have made := hadmits.makes
  have known : begun ∈ later ++ step :: (recent ++ begun :: earlier) :=
    List.mem_append_right later (List.mem_cons_of_mem step
      (List.mem_append_right recent List.mem_cons_self))
  have clip : IsClipName r.job.outputName := by
    obtain ⟨_, _, _, hjob⟩ := made
    exact Scene.isClipName_createJob hjob
  -- Whoever had the name now would have been given it, and names are given only once.
  have same := fun second hsecond other twin =>
    hu.distinct begun (List.mem_cons_of_mem next known) second hsecond r.task other r.job twin made
  refine ⟨⟨?_, clip.proper, fun q hq howns => ?_⟩, fun task job hmakes => ⟨fun hname => ?_, ?_⟩⟩
  · exact (hu.receives begun (List.mem_cons_of_mem next known) r.task r.job made).named.1
  · rcases howns with hname | hname
    · obtain ⟨older, first, oldest, hsteps, hjoined, _⟩ := hbefore.origin hq
      have member : first ∈ next :: (later ++ step :: (recent ++ begun :: earlier)) := by
        rw [hsteps]
        exact List.mem_cons_of_mem next (List.mem_append_right older List.mem_cons_self)
      exact hbefore.absent hr hends q hq (same first member q.task q.job hjoined.makes hname).symm
    · exact clip.ne_partName hname
  · obtain rfl := same next List.mem_cons_self task job hmakes hname
    obtain ⟨order, _, hevent, _⟩ := hmakes
    obtain ⟨first, _, hbrings, _⟩ := made
    exact h.fresh ⟨begun, known, first, hbrings⟩ (by rw [hevent]; rfl)
  · exact clip.ne_partName

/-- What a task has left at its output as it ended is there ever after, if nobody else takes it
away. -/
theorem stays (h : Run settings (later ++ step :: past) pool spawned)
    (hu : Undisturbed settings names (later ++ step :: past)) (hr : r ∈ step.before.renders)
    (hends : step.Ends r.task outcome)
    (hthere : step.after.world.files.itself? (r.job.output settings) = some entry)
    (hleft : (later ++ [step]).IsChain (Step.Leaves (r.job.output settings))) :
    ∀ last ∈ later ++ [step],
      last.after.world.files.itself? (r.job.output settings) = some entry := by
  induction later generalizing pool spawned with
  | nil =>
    intro last hlast
    obtain rfl := List.mem_singleton.mp hlast
    exact hthere
  | cons next rest ih =>
    rw [List.cons_append] at h hu hleft
    obtain ⟨_, hbefore, _, rfl, _⟩ := h.last
    have before := ih hbefore hu.earlier hleft.of_cons
    intro last hlast
    rcases List.mem_cons.mp hlast with rfl | hold
    · have found : last.world.files.itself? (r.job.output settings) = some entry := by
        obtain ⟨former, more, hrest⟩ := List.exists_cons_of_ne_nil (l := rest ++ [step]) (by simp)
        rw [hrest] at hleft before
        exact (List.isChain_cons_cons.mp hleft).1.trans (before former List.mem_cons_self)
      obtain ⟨aside, fresh⟩ := h.aside hu hr hends
      obtain ⟨order, hcourse⟩ := h.course
      have tidy := h.tidy hu
      have directory : last.found.outputDirectory = .ofText settings.outputDirectory := by
        rw [← hbefore.inOrder.2]
        rfl
      rw [← directory] at tidy
      have still : last.world.files.itself?
          (last.found.outputDirectory.child r.job.outputName) = some entry := by
        rw [directory]
        exact found
      have result := Tidy.course_itself? (s := last.found) tidy aside order
        (hu.sound last List.mem_cons_self) ?_ still hcourse
      · rw [directory] at result
        exact result
      · intro task order world job hevent hjob
        have makes : last.Makes task job := ⟨order, world, hevent, hjob⟩
        exact ⟨hu.receives last List.mem_cons_self task job makes, h.others_named hu makes,
          fresh task job makes⟩
    · exact before last hold

end Run

end ClipRender.Rendering
