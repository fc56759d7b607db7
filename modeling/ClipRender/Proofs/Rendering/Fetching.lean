import ClipRender.Proofs.Http.Downloading
import ClipRender.Proofs.Rendering.Keeping
import ClipRender.Proofs.Rendering.Naming

set_option autoImplicit false

/-!
From the answer to an export to the clip itself: the name in the answer leads to the file that the
engine has written, and no name leads to a file that is still being written.
-/

namespace ClipRender.Rendering

open Files Http

/-- How a name fits all other names, the pattern of downloads and the hidden name beside it. -/
structure NameFits (now : Binary64) (token name : String) : Prop where
  telling : ∀ other twin, outputName other twin = .ok name ↔
    milliseconds other = milliseconds now ∧ shown twin = shown token
  eight : (shown token).length = 8
  offered : Download.isClipName name = true
  beside : ∀ dir : Path, (dir.child name).partial? = some (dir.child (partName name))
  hidden : Download.isClipName (partName name) = false
  refused : ∀ around get, get.method = "GET" → get.path = "/exports/" ++ partName name →
    Dispatch.action around get = .respond Download.notFound
  apart : ∀ other twin another, outputName other twin = .ok another → partName name ≠ another
  alone : ∀ (dir : Path) (output : Path), output.partial? = (dir.child name).partial? →
    output = dir.child name

theorem NameFits.of_outputName {now : Binary64} {token name : String} (htoken : IsToken token)
    (h : outputName now token = .ok name) : NameFits now token name where
  telling other twin := by
    refine ⟨fun hagain => outputName_inj hagain h, fun ⟨htime, hshown⟩ => ?_⟩
    exact outputName_congr htime.symm hshown.symm h
  eight := by rw [shown, List.length_take, Nat.min_eq_left htoken.long]
  offered := isClipName_of_outputName htoken h
  beside dir := partial?_child dir name
  hidden := not_isClipName_partName name
  refused around get hmethod hpath := by
    obtain ⟨_, hslash⟩ := segment_of_isClipName (isClipName_of_outputName htoken h)
    have plain : '/' ∉ (partName name).toList := by
      simpa [partName] using hslash
    have some : (partName name).toList ≠ [] := by
      simp [partName]
    rw [action_exports some plain hmethod hpath,
      respond_refused _ _ _ (not_isClipName_partName name)]
  apart other twin another hother := (isClipName_outputName hother).ne_partName.symm
  alone dir output hsame :=
    partial?_inj (hsame.trans (partial?_child dir name)) (partial?_child dir name)

def Says (response : Response) (field value : String) : Prop :=
  ∃ fields, response.body = .json (.object fields) ∧ fields.lookup field = some (.string value)

/-- The answer to an export, as it goes out. -/
def reply (post : Request) (jobId : String) (outcome : Outcome) : Response :=
  CrossOrigin.finish post (Dispatch.outcomeResponse jobId outcome)

theorem body_reply (post : Request) (jobId : String) (outcome : Outcome) :
    (reply post jobId outcome).body = (Dispatch.outcomeResponse jobId outcome).body := by
  rw [reply, CrossOrigin.finish]
  split
  · rw [CrossOrigin.mark]
    split <;> rfl
  · rfl

theorem exported_of_says {post : Request} {jobId name : String} {outcome : Outcome}
    (h : Says (reply post jobId outcome) "outputName" name) :
    ∃ clip, outcome = .exported clip ∧ clip.outputName = name := by
  obtain ⟨fields, hbody, hfield⟩ := h
  rw [body_reply] at hbody
  cases outcome with
  | exported clip =>
    obtain rfl := Json.Value.object.inj (Body.json.inj hbody)
    exact ⟨clip, rfl, Json.Value.string.inj (Option.some.inj hfield)⟩
  | cancelled found =>
    cases found <;>
    · obtain rfl := Json.Value.object.inj (Body.json.inj hbody)
      simp [List.lookup_cons] at hfield
  | failed failure =>
    cases failure with
    | reported error =>
      obtain rfl := Json.Value.object.inj (Body.json.inj hbody)
      simp [List.lookup_cons] at hfield
    | _ => cases hbody

theorem says_address (post : Request) (jobId : String) (clip : Export) :
    Says (reply post jobId (.exported clip)) "accessURL" clip.accessUrl :=
  ⟨_, body_reply post jobId (.exported clip), rfl⟩

structure Wants (get : Request) (name : String) : Prop where
  method : get.method = "GET"
  path : get.path = "/exports/" ++ name
  unranged : get.header? "range" = none

/-- The clip that an answer tells of can be fetched: its address is that of a download, and as long
as its file is there the download gets what the engine has written. Nothing that the service does
later changes the file. -/
structure Fetched (settings : Settings) (step : Step) (past : List Step) (r : Render)
    (answer : Response) : Prop where
  address : ∃ stripped slashes : String, settings.publicBaseUrl = stripped ++ slashes ∧
    (∀ c ∈ slashes.toList, c = '/') ∧ stripped.toList.getLast? ≠ some '/' ∧
      Says answer "accessURL" (stripped ++ "/exports/" ++ r.job.outputName)
  engine : ∃ l process, Sees step.found step.event r l process ∧ process.exit = some 0
  content : ∃ file, step.world.files.file? r.part = .ok (some file) ∧
    step.after.world.files.file? r.output = .ok (some file) ∧
    ∀ around current get, Wants get r.job.outputName → around.settings = .ok current →
      current.outputDirectory = settings.outputDirectory →
      around.files.file? r.output = step.after.world.files.file? r.output →
      Dispatch.action around get = .respond (Download.video 200 file.content)
  lasting : ∀ file, step.after.world.files.itself? r.output = some (.file file) →
    ∀ names later pool spawned, Run settings (later ++ step :: past) pool spawned →
      Undisturbed settings names (later ++ step :: past) →
      (later ++ [step]).IsChain (Step.Leaves r.output) →
      ∀ last ∈ later, last.after.world.files.file? r.output = .ok (some file)

/-- The file that is served is not the one that is being written, unless somebody has put a link to
it under the name of a clip. -/
structure Elsewhere (files : Tree) (served part : Path) : Prop where
  path : part ≠ served
  place : Sound files → (∀ text, files.itself? served ≠ some (.link text)) →
    ∀ place, files.place served = .ok place → files.ownPlace part ≠ .ok place

theorem proper_of_isClipName {name : String} (h : Download.isClipName name = true) :
    Proper name := by
  refine ⟨?_, ?_⟩
  · rintro rfl
    exact absurd h (by decide)
  · rintro rfl
    exact absurd h (by decide)

theorem Elsewhere.of_child {files : Tree} {dir other : Path} {name : String} {file : File}
    (hname : Download.isClipName name = true)
    (hfile : files.file? (dir.child name) = .ok (some file)) (hidden : String) :
    Elsewhere files (dir.child name) (other.child (partName hidden)) := by
  have apart : partName hidden ≠ name := by
    rintro rfl
    rw [not_isClipName_partName] at hname
    contradiction
  refine ⟨fun hsame => apart ?_, fun hsound hlink place hplace hpart => apart ?_⟩
  · obtain ⟨_, hnames⟩ := Files.Path.mk.inj hsame
    exact List.singleton_inj.mp (List.append_inj' hnames rfl).2
  · have hstatus := Tree.file?_eq_some_iff.mp hfile
    obtain ⟨home, rfl⟩ :=
      hsound.place_child (proper_of_isClipName hname) hstatus hlink hplace
    obtain ⟨other, _, hsame⟩ := hsound.ownPlace_child (proper_partName hidden) hpart
    exact (List.singleton_inj.mp (List.append_inj' hsame rfl).2).symm

/-- A published part is found at the output, wherever links lead. -/
theorem Concluded.found {s t : Scene} {r : Render} {process : Engine.Process} {clip : Export}
    {dir : Path} (h : Concluded s r process t (.exported clip)) (hsound : Sound s.world.files)
    (houtput : r.output = dir.child r.job.outputName)
    (hpart : r.part = dir.child (partName r.job.outputName)) (hname : IsClipName r.job.outputName) :
    clip.accessUrl = accessUrl s.pool.settings.publicBaseUrl r.job.outputName ∧
      ∃ file, s.world.files.file? r.part = .ok (some file) ∧
        t.world.files.file? r.output = .ok (some file) := by
  cases h with
  | @exported files entry _ _ _ hpublish hfiles hstatus hclip =>
    obtain ⟨file, hfile, hmoved⟩ := Scene.publish_ok hpublish
    have moved := hmoved
    have found := hfile
    rw [houtput, hpart] at moved
    rw [hpart] at found
    obtain ⟨hgone, hthere⟩ :=
      hsound.renamed (proper_partName _) hname.proper hname.ne_partName.symm found moved
    rw [← hpart] at hgone
    rw [Scene.discardPart_nothing { s.world with files := files } hgone] at hfiles
    rw [hfiles, houtput] at hstatus
    obtain rfl := hthere entry hstatus
    refine ⟨hclip.accessUrl, file, hfile, ?_⟩
    rw [hfiles, houtput]
    exact Tree.file?_eq_some_iff.mpr hstatus

namespace Run

variable {settings : Settings} {steps past : List Step} {step : Step} {pool : Pool} {spawned : Nat}

theorem named (h : Run settings steps pool spawned) {r : Render} (hr : r ∈ pool.renders) :
    r.output = r.job.output settings ∧ r.part = r.job.part settings ∧
      ∃ now token, IsToken token ∧ outputName now token = .ok r.job.outputName := by
  obtain ⟨recent, begun, past, rfl, hadmits, _⟩ := h.origin hr
  obtain ⟨_, _, hrun⟩ := h.earlier recent
  obtain ⟨_, hbefore, _⟩ := hrun.last
  have own : begun.found.pool.settings = settings := hbefore.inOrder.2
  obtain ⟨order, files, _, hadmitted⟩ := hadmits.admitted
  obtain ⟨_, hjob⟩ := hadmitted.job
  obtain ⟨now, count, hname⟩ := Scene.createJob_named hjob
  obtain ⟨houtput, hpart⟩ := hadmitted.paths
  rw [own] at houtput hpart
  exact ⟨houtput, hpart, now, _, isToken_tokenText count, hname⟩

theorem render_of_exported (h : Run settings (step :: past) pool spawned) {task : Nat}
    {clip : Export} (hends : step.Ends task (.exported clip)) :
    ∃ r ∈ step.before.renders, r.task = task := by
  rcases h.splits with hcarries | ⟨r, hr, _, _, hparts⟩
  · have hanswered := hcarries.answered hends
    generalize step.event = event at hanswered
    cases hanswered with
    | stopped _ houtcome => simp at houtcome
  · exact ⟨r, hr, (hends.only hparts.ended).1.symm⟩

theorem fetched (h : Run settings (step :: past) pool spawned) (hsound : Sound step.world.files)
    {task : Nat} {outcome : Outcome} (hends : step.Ends task outcome) (post : Request)
    (jobId : String) {name : String} (hname : Says (reply post jobId outcome) "outputName" name) :
    ∃ r ∈ step.before.renders, r.task = task ∧ r.job.outputName = name ∧
      Fetched settings step past r (reply post jobId outcome) := by
  obtain ⟨clip, rfl, hclip⟩ := exported_of_says hname
  obtain ⟨r, hr, rfl⟩ := h.render_of_exported hends
  obtain ⟨⟨_, hown⟩, _, l, process, hsees, _, hexit⟩ := h.exported_as hr hends
  obtain ⟨_, hrun, _⟩ := h.last
  obtain ⟨houtput, hpart, now, token, htoken, hmade⟩ := hrun.named hr
  have fits := NameFits.of_outputName htoken hmade
  have directory : step.found.pool.settings = settings := hrun.inOrder.2
  -- Of the ways in which a task ends only the one that publishes its part answers with a clip.
  rcases h.ends_as hr hends with hfails | ⟨_, _, _, hconcluded⟩
  · obtain ⟨_, _, hfailed⟩ := hfails.planned
    exact nomatch hfailed
  obtain ⟨haddress, file, hwritten, hthere⟩ :=
    hconcluded.found hsound houtput hpart (isClipName_outputName hmade)
  refine ⟨r, hr, rfl, hown.symm.trans hclip, ?_, ⟨l, process, hsees, hexit⟩,
    ⟨file, hwritten, hthere, ?_⟩, ?_⟩
  · obtain ⟨stripped, slashes, hbase, hslashes, hlast, haddress'⟩ :=
      accessUrl_eq settings.publicBaseUrl r.job.outputName
    refine ⟨stripped, slashes, hbase, hslashes, hlast, ?_⟩
    rw [← haddress', ← directory, ← haddress]
    exact says_address post jobId clip
  · intro around current get hwants hcurrent hsame hkept
    obtain ⟨hsome, hslash⟩ := segment_of_isClipName fits.offered
    rw [action_exports hsome hslash hwants.method hwants.path, hwants.unranged, hcurrent,
      respond_whole fits.offered]
    rw [hsame, ← hthere, ← hkept, houtput]
    rfl
  · intro found hfound names later _ _ hlater hu hleft last hlast
    rw [houtput] at hfound hleft ⊢
    exact Tree.file?_of_itself?
      (hlater.stays hu hr hends hfound hleft last (List.mem_append_left _ hlast))

end Run

namespace Sample

theorem run_finishOne : Run settings (finishOne :: announced.steps) finishOne.after.pool
    finishOne.after.world.spawned := by
  have here : finishOne.before = announced.pool := by rw [finishOne]
  have now : announced.world = finishOne.world := by rw [finishOne]
  refine .next finishOne run_announced here (Nat.le_of_eq (congrArg World.spawned now)) ?_
  intro caller hnone
  cases hnone

theorem finishOne_ends : finishOne.Ends 1 (.exported Run.clipOne) := by
  rw [Step.Ends]
  decide +kernel

def post : Request := ⟨"POST", "/api/export-clip", [], []⟩

/-- What a request finds once the first clip is in its place. -/
def afterwards : Surroundings := ⟨.ok settings, finishOne.after.world.files, "", none⟩

def get : Request := ⟨"GET", "/exports/clip_0_00000001.mp4", [], []⟩

end Sample

end ClipRender.Rendering
