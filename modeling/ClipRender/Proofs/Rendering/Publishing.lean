import ClipRender.Proofs.Rendering.Cancelling
import ClipRender.Proofs.Rendering.Excluding
import ClipRender.Proofs.Rendering.Placing

set_option autoImplicit false

/-!
A clip appears in its place all at once, as its render ends with it, and nothing appears there if
the render ends in any other way. Outputs have names of their own, which nobody else uses.
-/

namespace ClipRender.Rendering

open Files

/-- Between two steps nobody touches an output, nor the part of a render without an engine. What
else has become of the part is the work of the engine. -/
def Step.Untouched (next last : Step) : Prop :=
  ∀ r ∈ next.before.renders,
    next.world.files.itself? r.output = last.after.world.files.itself? r.output ∧
      (r.hasEngine = false →
        next.world.files.itself? r.part = last.after.world.files.itself? r.part)

theorem Step.Untouched.of_world {next last : Step} (h : next.world = last.after.world) :
    next.Untouched last := by
  intro r _
  rw [h]
  exact ⟨rfl, fun _ => rfl⟩

theorem Play.untouched_next (play : Play) (event later : Event) :
    Step.Untouched ⟨(play.next event).pool, (play.next event).world, later⟩
      ⟨play.pool, play.world, event⟩ :=
  .of_world rfl

/-- The jobs of a run have names of their own in a directory that stays where it is, and nobody else
touches what stands under these names. -/
structure Undisturbed (settings : Settings) (names : String → Prop) (steps : List Step) : Prop where
  distinct : ∀ first ∈ steps, ∀ second ∈ steps, ∀ task other job twin, first.Makes task job →
    second.Makes other twin → job.outputName = twin.outputName → task = other
  receives : ∀ begun ∈ steps, ∀ task job, begun.Makes task job → begun.found.Receives names job
  sound : ∀ step ∈ steps, Sound step.world.files
  housed : ∀ step ∈ steps, step.before.renders ≠ [] →
    ∃ home, Housed names step.world.files (Path.ofText settings.outputDirectory) home
  untouched : steps.IsChain Step.Untouched

/-- A clip is put in its place at the turn of its render, which has seen the engine end in time and
with success. No call has cancelled the job since it was ordered. -/
structure Exports (settings : Settings) (step : Step) (between : List Step) (task : Nat) (job : Job)
    (clip : Export) : Prop where
  named : clip.jobId = job.id ∧ clip.outputName = job.outputName
  engine : ∃ r l process, Sees step.found step.event r l process ∧ r.task = task ∧ r.job = job ∧
    (job.id, process.pid) ∈ step.before.active ∧ process.exit = some 0
  uncancelled : job.id ∉ step.before.flagged ∧
    ∀ call ∈ step :: between, ∀ caller, call.event ≠ .cancel caller job.id
  content : ∃ file, step.world.files.file? (job.part settings) = .ok (some file) ∧
    step.after.world.files.file? (job.output settings) = .ok (some file) ∧
    clip.sizeInBytes = file.content.length

/-- What stands at the paths of a job when its task has ended. -/
structure Published (settings : Settings) (step : Step) (between : List Step) (task : Nat)
    (job : Job) (outcome : Outcome) : Prop where
  output : (step.after.world.files.itself? (job.output settings)).isSome = true ↔
    ∃ clip, outcome = .exported clip
  exports : ∀ clip, outcome = .exported clip → Exports settings step between task job clip
  part : ∀ file, step.after.world.files.file? (job.part settings) ≠ .ok (some file)

theorem Undisturbed.earlier {settings : Settings} {names : String → Prop} {step : Step}
    {past : List Step} (h : Undisturbed settings names (step :: past)) :
    Undisturbed settings names past where
  distinct first hfirst second hsecond :=
    h.distinct first (List.mem_cons_of_mem step hfirst) second (List.mem_cons_of_mem step hsecond)
  receives begun hbegun := h.receives begun (List.mem_cons_of_mem step hbegun)
  sound other hother := h.sound other (List.mem_cons_of_mem step hother)
  housed other hother := h.housed other (List.mem_cons_of_mem step hother)
  untouched := h.untouched.of_cons

theorem Published.of_failed {settings : Settings} {step : Step} {between : List Step} {task : Nat}
    {job : Job} {failure : Failure}
    (houtput : step.after.world.files.itself? (job.output settings) = none)
    (hpart : ∀ file, step.after.world.files.file? (job.part settings) ≠ .ok (some file)) :
    Published settings step between task job (.failed failure) := by
  refine ⟨?_, fun clip hclip => (nomatch hclip), hpart⟩
  rw [houtput]
  exact ⟨fun hsome => (nomatch hsome), fun ⟨_, hclip⟩ => (nomatch hclip)⟩

theorem Tidy.kept {names : String → Prop} {dir : Path} {next last : Step}
    (h : Tidy names dir last.after.world.files next.before.renders)
    (housed : next.before.renders ≠ [] → ∃ home, Housed names next.world.files dir home)
    (huntouched : next.Untouched last) :
    Tidy names dir next.world.files next.before.renders where
  placed := h.placed
  distinct := h.distinct
  housed := housed
  outputs r hr := by
    rw [(huntouched r hr).1]
    exact h.outputs r hr
  parts r hr hidle := by
    rw [(huntouched r hr).2 hidle]
    exact h.parts r hr hidle

namespace Run

variable {settings : Settings} {names : String → Prop} {steps past between : List Step}
  {step begun : Step} {pool : Pool} {spawned task : Nat} {job : Job}

theorem others_named (h : Run settings (step :: past) pool spawned)
    (hu : Undisturbed settings names (step :: past)) (hmakes : step.Makes task job) :
    ∀ q ∈ step.before.renders, q.job.outputName ≠ job.outputName := by
  intro q hq hname
  obtain ⟨_, hrun, _⟩ := h.last
  obtain ⟨recent, begun, earlier, rfl, hadmits, _⟩ := hrun.origin hq
  have made : begun ∈ recent ++ begun :: earlier := List.mem_append_right recent List.mem_cons_self
  have same := hu.distinct begun (List.mem_cons_of_mem step made) step List.mem_cons_self _ _ _ _
    hadmits.makes hmakes hname
  obtain ⟨order, _, hevent, _⟩ := hmakes
  refine h.fresh (h.ordered_before hq) ?_
  rw [hevent, same]
  rfl

theorem tidied (h : Run settings (step :: past) pool spawned)
    (hu : Undisturbed settings names (step :: past))
    (hfound : Tidy names (.ofText settings.outputDirectory) step.world.files step.before.renders) :
    Tidy names (.ofText settings.outputDirectory) step.after.world.files
      step.after.pool.renders := by
  obtain ⟨order, hcourse⟩ := h.course
  obtain ⟨_, hrun, _⟩ := h.last
  have directory : step.found.outputDirectory = .ofText settings.outputDirectory := by
    rw [← hrun.inOrder.2]
    rfl
  rw [← directory] at hfound ⊢
  refine Tidy.course (s := step.found) hfound order (hu.sound step List.mem_cons_self) ?_ hcourse
  intro task order world job hevent hjob
  have makes : step.Makes task job := ⟨order, world, hevent, hjob⟩
  exact ⟨hu.receives step List.mem_cons_self task job makes, h.others_named hu makes⟩

theorem tidy (h : Run settings (step :: past) pool spawned)
    (hu : Undisturbed settings names (step :: past)) :
    Tidy names (.ofText settings.outputDirectory) step.world.files step.before.renders := by
  induction past generalizing step pool spawned with
  | nil =>
    obtain ⟨_, hrun, _⟩ := h.last
    generalize step.before = before at hrun
    cases hrun with
    | start hnew =>
      obtain ⟨_, rfl⟩ := Pool.new_eq hnew
      exact .nobody names _ _
  | cons last earlier ih =>
    obtain ⟨_, hrun, _⟩ := h.last
    obtain ⟨_, _, _, hpool, _⟩ := hrun.last
    have left := hrun.tidied hu.earlier (ih hrun hu.earlier)
    rw [← hpool] at left
    refine left.kept (hu.housed step List.mem_cons_self) ?_
    exact (List.isChain_cons_cons.mp hu.untouched).1

theorem leftover (h : Run settings (step :: past) pool spawned)
    (hu : Undisturbed settings names (step :: past)) {r : Render} (hr : r ∈ step.before.renders)
    {outcome : Outcome} (hends : step.Ends r.task outcome) :
    Leftover step.world.files r step.after.world.files outcome := by
  have tidy := h.tidy hu
  have placed := tidy.placed r hr
  have free := tidy.outputs r hr
  obtain ⟨home, housed⟩ := tidy.housed (List.ne_nil_of_mem hr)
  rcases h.ends_as hr hends with hfails | ⟨_, _, _, hconcluded⟩
  · exact (Fails.leftover hfails placed housed free).2
  · exact (Concluded.leftover hconcluded placed housed free).2

/-- Only a render that has seen its engine end well ends with a clip. -/
theorem exported_as (h : Run settings (step :: past) pool spawned) {r : Render}
    (hr : r ∈ step.before.renders) {clip : Export} (hends : step.Ends r.task (.exported clip)) :
    (clip.jobId = r.job.id ∧ clip.outputName = r.job.outputName) ∧
      r.job.id ∉ step.before.flagged ∧ ∃ l process, Sees step.found step.event r l process ∧
        (r.job.id, process.pid) ∈ step.before.active ∧ process.exit = some 0 := by
  obtain ⟨order, _⟩ := h.course
  rcases h.ends_as hr hends with hfails | ⟨l, process, hsees, hconcluded⟩
  · obtain ⟨failure, _, hfailed⟩ := hfails.planned
    exact nomatch hfailed
  · cases hconcluded with
    | exported hflag hcode _ _ _ hclip =>
      refine ⟨⟨hclip.jobId, hclip.outputName⟩, hflag, l, process, hsees, ?_⟩
      obtain ⟨hactive, _, hown⟩ := order.links.watching r hr _ _ hsees.phase
      obtain ⟨hmem, _⟩ := Pool.lookout?_mem hsees.lookout
      obtain ⟨hpid, _⟩ := hown l hmem rfl
      have down := order.links.settled l hmem (.inr ⟨hsees.back, hsees.recalled⟩)
      rw [hpid, Pool.isRunning, hsees.process] at down
      refine ⟨hactive, ?_⟩
      cases hexit : process.exit with
      | none => simp [Engine.Process.isRunning, hexit] at down
      | some code =>
        rw [hexit] at hcode
        exact congrArg some hcode

theorem uncancelled (h : Run settings (between ++ past) pool spawned)
    (hbegun : begun ∈ between.getLast?) (hmakes : begun.Makes task job)
    (hunended : Unended between task) {r : Render} (hr : r ∈ pool.renders) (htask : r.task = task)
    (hflag : job.id ∉ pool.flagged) :
    ∀ call ∈ between, ∀ caller, call.event ≠ .cancel caller job.id := by
  obtain ⟨recent, rfl⟩ := List.getLast?_eq_some_iff.mp hbegun
  intro call hcall caller hevent
  rcases List.mem_append.mp hcall with hrecent | hlast
  · obtain ⟨later, earlier, rfl⟩ := List.append_of_mem hrecent
    have steps : later ++ call :: earlier ++ [begun] ++ past
        = later ++ call :: (earlier ++ begun :: past) := by simp
    rw [steps] at h
    obtain ⟨_, _, hrun⟩ := h.earlier later
    obtain ⟨_, hbefore, _⟩ := hrun.last
    have underway : Underway (earlier ++ begun :: past) task job := by
      refine ⟨earlier, begun, past, rfl, hmakes, fun step hstep => hunended step ?_⟩
      rw [List.append_assoc]
      exact List.mem_append_right later (List.mem_cons_of_mem call hstep)
    obtain ⟨q, hq, hsame, rfl⟩ := hbefore.underway_iff.mp underway
    rcases h.lingers hevent hq rfl with ⟨_, hgone⟩ | ⟨_, _, _, hmark, _⟩
    · exact hgone r hr (htask.trans hsame.symm)
    · exact hflag hmark
  · obtain rfl := List.mem_singleton.mp hlast
    obtain ⟨order, _, horder, _⟩ := hmakes
    exact nomatch horder.symm.trans hevent

/-- The step that orders a job: nothing stands at the output before and after, and the task ends
with a failure if it ends. -/
theorem published_at_once (h : Run settings (step :: past) pool spawned)
    (hu : Undisturbed settings names (step :: past)) (hmakes : step.Makes task job) :
    step.world.files.itself? (job.output settings) = none ∧
      step.after.world.files.itself? (job.output settings) = none ∧
      ∀ outcome, step.Ends task outcome → Published settings step between task job outcome := by
  have receives := hu.receives step List.mem_cons_self task job hmakes
  obtain ⟨_, hrun, _⟩ := h.last
  have own : step.found.pool.settings = settings := hrun.inOrder.2
  have fresh := receives.fresh
  have output := receives.output
  have part := receives.part
  rw [own] at fresh output part
  have made := hmakes
  obtain ⟨order, world, hevent, hjob⟩ := made
  refine ⟨fresh, ?_⟩
  rcases h.ordering hevent with ⟨failure, hended, _, hway⟩ | ⟨hended, r, hr, rfl, hadmits, _⟩
  · rw [← hway.files_made hjob receives] at output part
    refine ⟨output, fun outcome hends => ?_⟩
    obtain ⟨_, rfl⟩ := hends.only hended
    exact .of_failed output (Tree.file?_ne_some part)
  · obtain rfl := hadmits.makes.unique hmakes
    have tidy := h.tidied hu (h.tidy hu)
    have free := tidy.outputs r hr
    rw [(tidy.placed r hr).output] at free
    refine ⟨free, fun outcome hends => ?_⟩
    rw [Step.Ends, hended] at hends
    exact absurd hends List.not_mem_nil

/-- As long as the task of a job has not ended nothing stands at the output of the job. When it
ends, the complete clip is there if the task reports one, and else nothing; and no part is left. -/
theorem published (h : Run settings (step :: between ++ past) pool spawned)
    (hu : Undisturbed settings names (step :: between ++ past))
    (hbegun : begun ∈ (step :: between).getLast?) (hmakes : begun.Makes task job)
    (hunended : Unended between task) :
    step.world.files.itself? (job.output settings) = none ∧
      ((∀ outcome, ¬ step.Ends task outcome) →
        step.after.world.files.itself? (job.output settings) = none) ∧
      ∀ outcome, step.Ends task outcome → Published settings step between task job outcome := by
  rw [List.cons_append] at h hu
  cases between with
  | nil =>
    obtain rfl : step = begun := Option.some.inj hbegun
    obtain ⟨before, after, published⟩ := h.published_at_once hu hmakes
    exact ⟨before, fun _ => after, published⟩
  | cons last rest =>
    rw [List.getLast?_cons_cons] at hbegun
    obtain ⟨recent, hsplit⟩ := List.getLast?_eq_some_iff.mp hbegun
    have underway : Underway (last :: rest ++ past) task job := by
      refine ⟨recent, begun, past, ?_, hmakes, hsplit ▸ hunended⟩
      rw [hsplit, List.append_assoc, List.singleton_append]
    obtain ⟨_, hrun, _, rfl, _⟩ := h.last
    obtain ⟨r, hr, rfl, rfl⟩ := hrun.underway_iff.mp underway
    have tidy := h.tidy hu
    have placed := tidy.placed r hr
    have free := tidy.outputs r hr
    have output : r.output = r.job.output settings := placed.output
    have part : r.part = r.job.part settings := placed.part
    refine ⟨output ▸ free, fun hquiet => ?_, fun outcome hends => ?_⟩
    · obtain ⟨q, hq, hsame⟩ := h.stays_in hr hquiet
      have later := (h.tidied hu tidy).outputs q hq
      rwa [Render.output_eq hsame, output] at later
    · have hleftover := h.leftover hu hr hends
      cases hleftover with
      | nothing houtput hpart => exact .of_failed (output ▸ houtput) (part ▸ hpart)
      | @clip clip file hpart houtput hsize hgone =>
        rw [output] at houtput
        rw [part] at hpart hgone
        have something := Tree.itself?_isSome (Tree.file?_eq_some_iff.mp houtput)
        obtain ⟨hnamed, hflag, l, process, hsees, hactive, hexit⟩ := h.exported_as hr hends
        refine ⟨⟨fun _ => ⟨clip, rfl⟩, fun _ => something⟩, fun other hother => ?_, hgone⟩
        obtain rfl := Outcome.exported.inj hother
        refine ⟨hnamed, ⟨r, l, process, hsees, rfl, rfl, hactive, hexit⟩, ⟨hflag, ?_⟩,
          ⟨file, hpart, houtput, hsize⟩⟩
        intro call hcall caller hevent
        rcases List.mem_cons.mp hcall with rfl | hearlier
        · exact nomatch hevent.symm.trans hsees.event
        · exact hrun.uncancelled hbegun hmakes hunended hr rfl hflag call hearlier caller hevent

end Run

namespace Sample

def writer : Engine.Script :=
  { engine false with
    output := some (.file [1, 2, 3])
    lifetime := some 0 }

def orderedOne : Play := Play.next ⟨[], pool, world writer⟩ (.order 1 (order "a"))

def orderedTwo : Play := orderedOne.next (.order 2 (order "b"))

def looked : Play := orderedTwo.next (.look 1)

def announced : Play := looked.next (.announce 1)

def orderOne : Step := ⟨pool, world writer, .order 1 (order "a")⟩

def orderTwo : Step := ⟨orderedOne.pool, orderedOne.world, .order 2 (order "b")⟩

/-- The turn in which the first render puts its clip in place. -/
def finishOne : Step := ⟨announced.pool, announced.world, .turn (.render 1)⟩

theorem announced_steps : announced.steps = [⟨looked.pool, looked.world, .announce 1⟩,
    ⟨orderedTwo.pool, orderedTwo.world, .look 1⟩, orderTwo, orderOne] := rfl

theorem announced_eq : announced = Play.ofEvents pool (world writer)
    [.order 1 (order "a"), .order 2 (order "b"), .look 1, .announce 1] := by
  rw [announced, looked, orderedTwo, orderedOne]
  rfl

theorem run_announced :
    Run settings announced.steps announced.pool announced.world.spawned := by
  have start : Run settings [] pool (world writer).spawned := .start new_settings
  have h := Play.run start [.order 1 (order "a"), .order 2 (order "b"), .look 1, .announce 1]
    (by decide)
  rwa [← announced_eq, List.append_nil] at h

def job (id name : String) : Job := ⟨id, "/in/v.mp4", (order id).moment, (order id).spec, name⟩

theorem orderOne_makes : orderOne.Makes 1 (job "a" "clip_0_00000001.mp4") := by
  have made : (orderOne.found.createJob (order "a")).2 = .ok (job "a" "clip_0_00000001.mp4") := by
    decide +kernel
  exact ⟨order "a", (orderOne.found.createJob (order "a")).1, rfl, by rw [← made]⟩

theorem orderTwo_makes : orderTwo.Makes 2 (job "b" "clip_0_00000002.mp4") := by
  have made : (orderTwo.found.createJob (order "b")).2 = .ok (job "b" "clip_0_00000002.mp4") := by
    decide +kernel
  exact ⟨order "b", (orderTwo.found.createJob (order "b")).1, rfl, by rw [← made]⟩

theorem makes_one_or_two {step : Step} (hstep : step ∈ finishOne :: announced.steps) {task : Nat}
    {other : Job} (hmakes : step.Makes task other) :
    (step = orderOne ∧ task = 1 ∧ other = job "a" "clip_0_00000001.mp4") ∨
      (step = orderTwo ∧ task = 2 ∧ other = job "b" "clip_0_00000002.mp4") := by
  have made := hmakes
  obtain ⟨brought, _, hevent, _⟩ := made
  rw [announced_steps] at hstep
  simp only [List.mem_cons, List.not_mem_nil, or_false] at hstep
  rcases hstep with rfl | rfl | rfl | rfl | rfl
  · exact nomatch hevent
  · exact nomatch hevent
  · exact nomatch hevent
  · obtain ⟨rfl, _⟩ := Event.order.inj hevent
    exact .inr ⟨rfl, rfl, hmakes.unique orderTwo_makes⟩
  · obtain ⟨rfl, _⟩ := Event.order.inj hevent
    exact .inl ⟨rfl, rfl, hmakes.unique orderOne_makes⟩

theorem housed_out (names : String → Prop) {tree : Tree} (h : tree.entry? ["out"] = some .directory) :
    Housed names tree (.ofText settings.outputDirectory) ["out"] := by
  refine ⟨h, 0, Nat.zero_le _, fun other hagrees => ?_⟩
  have still : other.entry? ["out"] = some .directory := by
    rw [hagrees.entries ["out"] fun name _ => by simp]
    exact h
  exact .down ⟨by decide, by decide, by decide⟩ still .stay

theorem sound_out : ∀ step ∈ finishOne :: announced.steps,
    Sound step.world.files ∧ step.world.files.entry? ["out"] = some .directory := by
  have checked : ∀ step ∈ finishOne :: announced.steps,
      (∀ entry ∈ step.world.files.entries,
        step.world.files.entry? entry.1.dropLast = some .directory) ∧
      step.world.files.entry? step.world.files.workingDirectory = some .directory ∧
      step.world.files.entry? ["out"] = some .directory := by
    decide +kernel
  intro step hstep
  obtain ⟨habove, hworking, hout⟩ := checked step hstep
  exact ⟨.of_entries habove hworking, hout⟩

theorem receives {step : Step} (hstep : step ∈ finishOne :: announced.steps) {other : Job}
    (hsettings : step.before.settings = settings)
    (houtput : step.world.files.itself? (other.output settings) = none)
    (hpart : step.world.files.itself? (other.part settings) = none) :
    step.found.Receives (fun _ => True) other := by
  obtain ⟨hsound, hout⟩ := sound_out step hstep
  have housed := housed_out (fun _ => True) hout
  have directory : step.found.outputDirectory = .ofText settings.outputDirectory := by
    rw [← hsettings]
    rfl
  have own : step.found.pool.settings = settings := hsettings
  have made : (step.found.world.files.ensureDirectories
      (Path.ofText settings.outputDirectory).text).1 = step.world.files :=
    housed.enters.ensureDirectories_eq hsound
  rw [← directory] at made housed
  refine ⟨⟨trivial, trivial⟩, ?_, ?_, ?_, fun files hfiles => ⟨["out"], ?_⟩⟩
  · rw [own]
    exact houtput
  · rw [made, own]
    exact houtput
  · rw [made, own]
    exact hpart
  · rw [hfiles] at made
    obtain rfl : files = step.world.files := made
    exact housed

theorem undisturbed : Undisturbed settings (fun _ => True) (finishOne :: announced.steps) where
  distinct := by
    intro one hone two htwo task other job twin hmakes hagain hname
    rcases makes_one_or_two hone hmakes with ⟨_, rfl, rfl⟩ | ⟨_, rfl, rfl⟩ <;>
      rcases makes_one_or_two htwo hagain with ⟨_, rfl, rfl⟩ | ⟨_, rfl, rfl⟩
    · rfl
    · exact absurd hname (by decide)
    · exact absurd hname (by decide)
    · rfl
  receives := by
    intro begun hbegun task job hmakes
    rcases makes_one_or_two hbegun hmakes with ⟨rfl, _, rfl⟩ | ⟨rfl, _, rfl⟩
    · exact receives hbegun rfl (by decide +kernel) (by decide +kernel)
    · exact receives hbegun (by decide +kernel) (by decide +kernel) (by decide +kernel)
  sound step hstep := (sound_out step hstep).1
  housed step hstep _ := ⟨["out"], housed_out _ (sound_out step hstep).2⟩
  untouched := by
    rw [announced_steps]
    refine .cons_cons ?_ (.cons_cons ?_ (.cons_cons ?_ (.cons_cons ?_ (.singleton _))))
    · rw [finishOne, announced]
      exact looked.untouched_next _ _
    · rw [looked]
      exact orderedTwo.untouched_next _ _
    · rw [orderedTwo]
      exact orderedOne.untouched_next _ _
    · rw [orderTwo, orderedOne]
      exact Play.untouched_next ⟨[], pool, world writer⟩ _ _

end Sample

namespace Run

open Sample

def clipOne : Export :=
  { jobId := "a"
    outputName := "clip_0_00000001.mp4"
    outputPath := "/out/clip_0_00000001.mp4"
    accessUrl := "http://localhost:3001/exports/clip_0_00000001.mp4"
    sizeInBytes := 3
    milliseconds := 0 }

theorem published_one : Published settings finishOne announced.steps 1
    (job "a" "clip_0_00000001.mp4") (.exported clipOne) := by
  have fresh : ∀ task ∈ finishOne.event.caller?, ∀ earlier ∈ announced.steps,
      earlier.event.caller? ≠ some task := fun _ hnone => nomatch hnone
  have h : Run settings (finishOne :: announced.steps ++ []) finishOne.after.pool
      finishOne.after.world.spawned := by
    have here : finishOne.before = announced.pool := by rw [finishOne]
    have now : announced.world = finishOne.world := by rw [finishOne]
    rw [List.append_nil]
    exact .next finishOne run_announced here (Nat.le_of_eq (congrArg World.spawned now)) fresh
  have quiet : ∀ step ∈ announced.steps, ∀ entry ∈ step.after.pool.ended, entry.1 ≠ 1 := by
    decide +kernel
  have ends : finishOne.Ends 1 (.exported clipOne) := by
    rw [Step.Ends]
    decide +kernel
  have begins : orderOne ∈ (finishOne :: announced.steps).getLast? := rfl
  obtain ⟨_, _, result⟩ := published h undisturbed begins orderOne_makes
    fun step hstep outcome hends => quiet step hstep _ hends rfl
  exact result _ ends

end Run

end ClipRender.Rendering
