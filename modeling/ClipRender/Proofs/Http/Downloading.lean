import ClipRender.Http.Dispatch

set_option autoImplicit false

/-!
Which requests are answered with bytes, and which file these are read from.
-/

namespace ClipRender.Http

def Response.bytes? (response : Response) : Option Utf8.Bytes :=
  match response.body with
  | .bytes bytes => some bytes
  | _ => none

section Plain

variable {request : Request} {response : Response}

@[simp] theorem bytes?_text (status : Nat) (s : String) :
    (Response.text status s).bytes? = none := rfl

@[simp] theorem bytes?_crash (failure : Failure) : (Response.crash failure).bytes? = none := rfl

@[simp] theorem bytes?_notFound : Download.notFound.bytes? = none := rfl

@[simp] theorem bytes?_mark (origin : String) (response : Response) :
    (CrossOrigin.mark origin response).bytes? = response.bytes? := by
  rw [CrossOrigin.mark]
  split <;> rfl

theorem bytes?_preflight (h : CrossOrigin.preflight? request = some response) :
    response.bytes? = none := by
  rw [CrossOrigin.preflight?] at h
  split at h
  · split at h
    · obtain rfl := Option.some.inj h
      rw [CrossOrigin.preflight, bytes?_mark, apply_ite Response.bytes?, bytes?_text, bytes?_text,
        ite_self]
    · contradiction
  · contradiction

theorem bytes?_unread (h : Body.read request = .error response) : response.bytes? = none := by
  rw [Body.read] at h
  split at h
  · contradiction
  split at h
  · contradiction
  split at h
  · obtain rfl := Except.error.inj h
    rfl
  split at h <;> cases h <;> rfl

theorem bytes?_obstacle {around : Surroundings}
    (h : Dispatch.obstacle around request = some response) :
    response.bytes? = none := by
  rw [Dispatch.obstacle] at h
  split at h
  · obtain rfl := Option.some.inj h
    rfl
  split at h
  · obtain rfl := Option.some.inj h
    rfl
  · rw [Dispatch.guard] at h
    split at h
    · contradiction
    split at h
    · contradiction
    split at h <;> cases h <;> rfl

theorem bytes?_unmet {size : Nat} {header : String} (h : Range.read size header = .error response) :
    response.bytes? = none := by
  rw [Range.read] at h
  split at h
  · obtain rfl := Except.error.inj h
    rfl
  dsimp only at h
  split at h
  · obtain rfl := Except.error.inj h
    rfl
  split at h
  · contradiction
  rw [Range.spans] at h
  split at h
  · cases h
    rfl
  split at h
  · cases h
    rfl
  split at h <;> cases h
  rfl

end Plain

/-- What is carried is a part of the file of the name, which has the shape of a clip's. -/
structure ReadFrom (files : Files.Tree) (settings : Settings) (name : String) (bytes : Utf8.Bytes) :
    Prop where
  offered : Download.isClipName name = true
  content : ∃ file start stop,
    files.file? ((Files.Path.ofText settings.outputDirectory).child name) = .ok (some file) ∧
      bytes = (file.content.take stop).drop start

section Bytes

variable {request : Request} {response : Response}

theorem exists_span_of_serve {content bytes : Utf8.Bytes} {range : Option String}
    (h : (Download.serve content range).bytes? = some bytes) :
    ∃ start stop, bytes = (content.take stop).drop start := by
  have whole : ∀ {bytes}, (Download.video 200 content).bytes? = some bytes →
      bytes = (content.take content.length).drop 0 := by
    intro bytes hbytes
    rw [List.take_length, List.drop_zero]
    exact (Option.some.inj hbytes).symm
  rw [Download.serve.eq_def] at h
  split at h
  · exact ⟨_, _, whole h⟩
  split at h
  · next hunmet =>
    rw [bytes?_unmet hunmet] at h
    contradiction
  · next span _ => exact ⟨span.start, span.stop, (Option.some.inj h).symm⟩
  · exact ⟨_, _, whole h⟩

theorem ReadFrom.of_respond {files : Files.Tree} {settings : Except Failure Settings}
    {name : String} {range : Option String} {bytes : Utf8.Bytes}
    (h : (Download.respond files settings name range).bytes? = some bytes) :
    ∃ current, settings = .ok current ∧ ReadFrom files current name bytes := by
  rw [Download.respond.eq_def] at h
  split at h
  · simp only [bytes?_notFound, reduceCtorEq] at h
  next hname =>
  split at h
  · simp only [bytes?_crash, reduceCtorEq] at h
  next current =>
  refine ⟨current, rfl, by simpa using hname, ?_⟩
  rw [Download.lookUp.eq_def] at h
  split at h
  · simp only [bytes?_crash, reduceCtorEq] at h
  · simp only [bytes?_notFound, reduceCtorEq] at h
  next file hfile =>
  obtain ⟨start, stop, hbytes⟩ := exists_span_of_serve h
  exact ⟨file, start, stop, hfile, hbytes⟩

theorem bytes?_withSettings {around : Surroundings} {page : Settings → Response}
    (h : Dispatch.withSettings around page = .respond response)
    (hpage : ∀ settings, (page settings).bytes? = none) : response.bytes? = none := by
  rw [Dispatch.withSettings] at h
  split at h
  · obtain rfl := Action.respond.inj h
    exact hpage _
  · obtain rfl := Action.respond.inj h
    rfl

theorem bytes?_exportClip {around : Surroundings}
    (h : Dispatch.exportClip around request = .respond response) : response.bytes? = none := by
  rw [Dispatch.exportClip] at h
  split at h
  · next hread =>
    obtain rfl := Action.respond.inj h
    exact bytes?_unread hread
  split at h
  · next hobstacle =>
    obtain rfl := Action.respond.inj h
    exact bytes?_obstacle hobstacle
  split at h
  · obtain rfl := Action.respond.inj h
    rfl
  · contradiction

theorem bytes?_cancelExport {around : Surroundings} {jobId : String}
    (h : Dispatch.cancelExport around request jobId = .respond response) :
    response.bytes? = none := by
  rw [Dispatch.cancelExport] at h
  split at h
  · next hobstacle =>
    obtain rfl := Action.respond.inj h
    exact bytes?_obstacle hobstacle
  · contradiction

theorem ReadFrom.of_action {around : Surroundings} {bytes : Utf8.Bytes}
    (h : Dispatch.action around request = .respond response)
    (hbytes : response.bytes? = some bytes) :
    ∃ current name, around.settings = .ok current ∧
      Route.ofPath? request.path = some (.download name) ∧
        ReadFrom around.files current name bytes := by
  have carries : response.bytes? ≠ none := by simp [hbytes]
  rw [Dispatch.action] at h
  split at h
  · next hpreflight =>
    obtain rfl := Action.respond.inj h
    exact absurd (bytes?_preflight hpreflight) carries
  split at h
  · next route hroute =>
    split at h
    · cases route with
      | health => exact absurd (bytes?_withSettings h fun _ => rfl) carries
      | root => exact absurd (bytes?_withSettings h fun _ => rfl) carries
      | exportClip => exact absurd (bytes?_exportClip h) carries
      | cancelExport jobId => exact absurd (bytes?_cancelExport h) carries
      | download name =>
        obtain rfl := Action.respond.inj h
        obtain ⟨current, hcurrent, hread⟩ := ReadFrom.of_respond hbytes
        exact ⟨current, name, hcurrent, hroute, hread⟩
    · obtain rfl := Action.respond.inj h
      exact absurd rfl carries
  · obtain rfl := Action.respond.inj h
    split at carries <;> exact absurd rfl carries

end Bytes

section Routes

variable {name path : String}

theorem segment_of_isClipName (h : Download.isClipName name = true) :
    name.toList ≠ [] ∧ '/' ∉ name.toList := by
  have inner : ∀ {cs : List Char}, Download.isClip cs = true → cs ≠ [] ∧ '/' ∉ cs := by
    intro cs hclip
    cases cs with
    | nil => contradiction
    | cons first rest =>
      simp only [Download.isClip, Bool.and_eq_true, List.all_eq_true] at hclip
      obtain ⟨⟨hfirst, _⟩, hrest⟩ := hclip
      refine ⟨List.cons_ne_nil _ _, fun hslash => ?_⟩
      rcases List.mem_cons.mp hslash with rfl | hslash
      · exact absurd hfirst (by decide)
      · exact absurd (hrest _ hslash) (by decide)
  rw [Download.isClipName] at h
  split at h
  · next hbreak =>
    obtain ⟨hsome, hslash⟩ := inner h
    obtain ⟨front, hfront⟩ := List.getLast?_eq_some_iff.mp hbreak
    rw [hfront, List.dropLast_concat] at hslash
    rw [hfront]
    refine ⟨by simp, fun hmem => ?_⟩
    rcases List.mem_append.mp hmem with hmem | hmem
    · exact hslash hmem
    · exact absurd hmem (by decide)
  · exact inner h

theorem isFixed_eq_false {fixed : String} (h : ¬ fixed.toList <+: path.toList) :
    Route.isFixed fixed path = false := by
  rw [Route.isFixed, Bool.or_eq_false_iff, decide_eq_false_iff_not, decide_eq_false_iff_not]
  refine ⟨fun hsame => h ⟨[], ?_⟩, fun hsame => h ?_⟩
  · rw [List.append_nil, hsame]
  · rw [hsame, String.toList_append]
    exact List.prefix_append _ _

theorem segmentAfter?_eq_none {start : String} (h : ¬ start.toList <+: path.toList) :
    Route.segmentAfter? start path = none := by
  rw [Route.segmentAfter?, if_neg]
  rwa [List.isPrefixOf_iff_prefix]

theorem segmentAfter?_append {start : String} (hsome : name.toList ≠ [])
    (hslash : '/' ∉ name.toList) :
    Route.segmentAfter? start (start ++ name) = some name := by
  have rest : (start ++ name).toList.drop start.length = name.toList := by
    rw [String.toList_append, ← String.length_toList, List.drop_left]
  rw [Route.segmentAfter?, if_pos, rest, if_neg]
  · rw [String.ofList_toList]
  · rw [Bool.or_eq_true, List.isEmpty_iff, List.contains_iff_mem]
    exact not_or.mpr ⟨hsome, hslash⟩
  · rw [List.isPrefixOf_iff_prefix, String.toList_append]
    exact List.prefix_append _ _

theorem ofPath?_exports (hsome : name.toList ≠ []) (hslash : '/' ∉ name.toList) :
    Route.ofPath? ("/exports/" ++ name) = some (.download name) := by
  -- Four characters tell this route from the others.
  have apart : ∀ {fixed : String},
      ¬ (fixed.toList <+: "/exp".toList ∨ "/exp".toList <+: fixed.toList) →
      ¬ fixed.toList <+: ("/exports/" ++ name).toList := by
    intro fixed hfixed hprefix
    rw [String.toList_append] at hprefix
    refine hfixed (List.prefix_or_prefix_of_prefix hprefix ?_)
    exact ⟨"orts/".toList ++ name.toList, rfl⟩
  rw [Route.ofPath?, isFixed_eq_false (apart (by decide)), isFixed_eq_false (apart (by decide)),
    segmentAfter?_eq_none (apart (by decide)), segmentAfter?_append hsome hslash]
  rfl

theorem preflight?_eq_none {request : Request} (h : request.method ≠ "OPTIONS") :
    CrossOrigin.preflight? request = none := by
  rw [CrossOrigin.preflight?]
  split
  · exact if_neg h
  · rfl

/-- A request by the method of its route is no question ahead of a call. -/
theorem action_of_route {around : Surroundings} {request : Request} {route : Route}
    (hpath : Route.ofPath? request.path = some route) (hmethod : request.method = route.method) :
    Dispatch.action around request = Dispatch.follow around request route := by
  have calls : request.method ≠ "OPTIONS" := by
    rw [hmethod]
    cases route <;> simp [Route.method]
  rw [Dispatch.action, preflight?_eq_none calls]
  dsimp only
  rw [hpath]
  exact if_pos hmethod

theorem action_exports {around : Surroundings} {request : Request} (hsome : name.toList ≠ [])
    (hslash : '/' ∉ name.toList) (hmethod : request.method = "GET")
    (hpath : request.path = "/exports/" ++ name) :
    Dispatch.action around request = .respond
      (Download.respond around.files around.settings name (request.header? "range")) := by
  have route : Route.ofPath? request.path = some (.download name) := by
    rw [hpath]
    exact ofPath?_exports hsome hslash
  exact action_of_route route hmethod

theorem respond_whole {files : Files.Tree} {settings : Settings} {file : Files.File}
    (hname : Download.isClipName name = true)
    (hfile : files.file? ((Files.Path.ofText settings.outputDirectory).child name)
      = .ok (some file)) :
    Download.respond files (.ok settings) name none = Download.video 200 file.content := by
  unfold Download.respond Download.lookUp
  simp only [hname, hfile]
  rfl

theorem respond_refused (files : Files.Tree) (settings : Except Failure Settings)
    (range : Option String) (hname : Download.isClipName name = false) :
    Download.respond files settings name range = Download.notFound := by
  unfold Download.respond
  rw [hname]
  rfl

end Routes

end ClipRender.Http
