import ClipRender.Proofs.Files.Finding
import ClipRender.Proofs.Rendering.Fetching
import ClipRender.Proofs.SourceAnswers

set_option autoImplicit false

/-!
Which requests for a whole clip get one. The name has the shape of a clip's, but for a line break at
its end, and a file stands under it in the output directory. The system may refuse the path for its
length, and then the request fails.
-/

namespace ClipRender.Rendering

open Files (Location Path Proper Tree)
open Http (Dispatch.action Download.isClip Download.isClipName Download.video Request Surroundings)

/-- The shape of a clip's name: a letter, digit, underscore or hyphen, more of these and of dots,
and the ending. -/
def Shaped (cs : List Char) : Prop :=
  ∃ first middle, cs = first :: (middle ++ ".mp4".toList) ∧ Http.Download.isFirst first = true ∧
    ∀ c ∈ middle, Http.Download.isNext c = true

/-- A name that is looked up. -/
def Offered (name : String) : Prop :=
  Shaped name.toList ∨ ∃ cs, name.toList = cs ++ ['\n'] ∧ Shaped cs

section Names

variable {cs : List Char} {name : String}

theorem isClip_iff : Download.isClip cs = true ↔ Shaped cs := by
  have ending : ∀ c ∈ ".mp4".toList, Http.Download.isNext c = true :=
    List.all_eq_true.mp (by decide)
  cases cs with
  | nil => exact iff_of_false nofun fun ⟨_, _, h, _⟩ => nomatch h
  | cons first rest =>
    simp only [Download.isClip, Bool.and_eq_true, List.all_eq_true, List.isSuffixOf_iff_suffix]
    constructor
    · rintro ⟨⟨hfirst, middle, rfl⟩, hrest⟩
      exact ⟨first, middle, rfl, hfirst, fun c hc => hrest c (List.mem_append_left _ hc)⟩
    · rintro ⟨other, middle, hsplit, hfirst, hmiddle⟩
      obtain ⟨rfl, rfl⟩ := List.cons.inj hsplit
      refine ⟨⟨hfirst, middle, rfl⟩, fun c hc => ?_⟩
      rcases List.mem_append.mp hc with hc | hc
      · exact hmiddle c hc
      · exact ending c hc

theorem Shaped.getLast? (h : Shaped cs) : cs.getLast? = some '4' := by
  obtain ⟨first, middle, rfl, -⟩ := h
  rw [← List.cons_append, List.getLast?_append_of_ne_nil _ (by decide)]
  rfl

theorem isClipName_iff : Download.isClipName name = true ↔ Offered name := by
  rw [Download.isClipName, isClip_iff]
  split
  · next hbreak =>
    have hsplit := List.dropLast_append_getLast? '\n' hbreak
    constructor
    · exact fun hshaped => .inr ⟨_, hsplit.symm, hshaped⟩
    · rintro (hshaped | ⟨cs, hcs, hshaped⟩)
      · rw [hshaped.getLast?] at hbreak
        cases hbreak
      · rwa [hcs, List.dropLast_concat]
  · next hplain =>
    refine ⟨.inl, ?_⟩
    rintro (hshaped | ⟨cs, hcs, -⟩)
    · exact hshaped
    · rw [hcs, List.getLast?_concat] at hplain
      exact absurd rfl hplain

end Names

section Contents

variable {files : Tree} {dir : Path} {home : Location} {name : String}

/-- A file stands under the name in the directory, or a link that leads to it. -/
def Holds (files : Tree) (dir : Path) (home : Location) (name : String) (file : Files.File) : Prop :=
  files.entry? (home ++ [name]) = some (.file file) ∨
    ((∃ target, files.entry? (home ++ [name]) = some (.link target)) ∧
      files.file? (dir.child name) = .ok (some file))

/-- A link stands there, and what it leads to has a path or a name that is too long. -/
def Strays (files : Tree) (dir : Path) (home : Location) (name : String) : Prop :=
  (∃ target, files.entry? (home ++ [name]) = some (.link target)) ∧
    ∃ fault, files.file? (dir.child name) = .error fault

variable (hdir : files.place dir = .ok home) (hhome : files.entry? home = some .directory)
  (hname : Proper name)

include hdir hhome hname

theorem found_iff (file : Files.File) :
    files.file? (dir.child name) = .ok (some file)
      ↔ dir.Roomy name ∧ Holds files dir home name file := by
  rw [Holds]
  rcases Tree.file?_child hdir hhome hname with ⟨hlong, hfault⟩ | ⟨hroomy, ⟨target, hlink⟩ |
    ⟨other, hentry, hfound⟩ | ⟨hnone, hfound⟩⟩
  · simp [hlong, hfault]
  · simp [hroomy, hlink]
  · simp [hroomy, hentry, hfound]
  · simp [hroomy, hnone, hfound]

theorem lost_iff : (∃ fault, files.file? (dir.child name) = .error fault) ↔
    ¬ dir.Roomy name ∨ Strays files dir home name := by
  rw [Strays]
  rcases Tree.file?_child hdir hhome hname with ⟨hlong, hfault⟩ | ⟨hroomy, ⟨target, hlink⟩ |
    ⟨other, hentry, hfound⟩ | ⟨hnone, hfound⟩⟩
  · simp [hlong, hfault]
  · simp [hroomy, hlink]
  · simp [hroomy, hfound]
  · simp [hroomy, hfound]

end Contents

section Answers

variable {around : Surroundings} {get : Request} {settings : Settings} {name : String}

theorem action_unnamed (hwants : Wants get name) (hname : name = "") :
    ∃ response, Dispatch.action around get = .respond response ∧ response.status = 404 := by
  have hpath : get.path = "/exports/" := by
    rw [hwants.path, hname]
    rfl
  have direct : Http.CrossOrigin.preflight? get = none :=
    Http.preflight?_eq_none (by rw [hwants.method]; decide)
  have nowhere : Http.Route.ofPath? "/exports/" = none := by decide
  have stays : Http.Route.redirects "/exports/" = false := by decide
  refine ⟨Http.Response.refusal 404 "Not Found", ?_, rfl⟩
  rw [Dispatch.action, direct, hpath]
  dsimp only
  rw [nowhere]
  dsimp only
  rw [stays]
  rfl

/-- The three answers, by what is found under a name. -/
structure Answers (found : Except Files.Fault (Option Files.File)) (name : String)
    (response : Http.Response) : Prop where
  whole : ∀ content, response.status = 200 ∧ response.bytes? = some content ↔
    Offered name ∧ ∃ file, found = .ok (some file) ∧ file.content = content
  fails : response.status = 500 ↔ Offered name ∧ ∃ fault, found = .error fault
  answered : (∃ content, response.status = 200 ∧ response.bytes? = some content) ∨
    response.status = 404 ∨ response.status = 500

namespace Answers

variable {found : Except Files.Fault (Option Files.File)} {file : Files.File} {fault : Files.Fault}
  {response : Http.Response}

theorem sent (hoffered : Offered name) :
    Answers (.ok (some file)) name (Download.video 200 file.content) where
  whole content := by
    constructor
    · rintro ⟨-, hbytes⟩
      exact ⟨hoffered, file, rfl, Option.some.inj hbytes⟩
    · rintro ⟨-, other, ⟨⟩, rfl⟩
      exact ⟨rfl, rfl⟩
  fails := iff_of_false (show 200 ≠ 500 by decide) fun ⟨_, _, hfault⟩ => nomatch hfault
  answered := .inl ⟨_, rfl, rfl⟩

theorem failed (hoffered : Offered name) (hstatus : response.status = 500) :
    Answers (.error fault) name response where
  whole content := by
    refine iff_of_false ?_ fun ⟨_, _, hfile, _⟩ => nomatch hfile
    rintro ⟨hwhole, -⟩
    exact absurd (hwhole.symm.trans hstatus) (by decide)
  fails := iff_of_true hstatus ⟨hoffered, fault, rfl⟩
  answered := .inr (.inr hstatus)

theorem missed (hstatus : response.status = 404) (hnone : Offered name → found = .ok none) :
    Answers found name response where
  whole content := by
    refine iff_of_false ?_ ?_
    · rintro ⟨hwhole, -⟩
      exact absurd (hwhole.symm.trans hstatus) (by decide)
    · rintro ⟨hoffered, file, hfile, -⟩
      exact nomatch hfile.symm.trans (hnone hoffered)
  fails := by
    refine iff_of_false (fun hfails => absurd (hfails.symm.trans hstatus) (by decide)) ?_
    rintro ⟨hoffered, fault, hfault⟩
    exact nomatch hfault.symm.trans (hnone hoffered)
  answered := .inr (.inl hstatus)

end Answers

theorem action_answers (hwants : Wants get name) (hslash : '/' ∉ name.toList)
    (hsettings : around.settings = .ok settings) :
    ∃ response, Dispatch.action around get = .respond response ∧
      Answers (around.files.file? ((Path.ofText settings.outputDirectory).child name)) name
        response := by
  by_cases hempty : name = ""
  · obtain ⟨response, haction, hstatus⟩ := @action_unnamed around get name hwants hempty
    refine ⟨response, haction, .missed hstatus fun hoffered => ?_⟩
    rw [← isClipName_iff, hempty] at hoffered
    exact absurd hoffered (by decide)
  have some : name.toList ≠ [] := fun hnil => hempty (String.toList_eq_nil_iff.mp hnil)
  refine ⟨_, Http.action_exports some hslash hwants.method hwants.path, ?_⟩
  rw [hwants.unranged, hsettings]
  cases hclip : Download.isClipName name with
  | false =>
    rw [Http.respond_refused _ _ _ hclip]
    refine .missed rfl fun hoffered => ?_
    rw [isClipName_iff.mpr hoffered] at hclip
    cases hclip
  | true =>
    have hoffered := isClipName_iff.mp hclip
    cases hfile : around.files.file? ((Path.ofText settings.outputDirectory).child name) with
    | error fault =>
      refine .failed hoffered ?_
      simp only [Http.Download.respond, Http.Download.lookUp, hclip, hfile]
      rfl
    | ok found =>
      cases found with
      | none =>
        refine .missed ?_ fun _ => rfl
        simp only [Http.Download.respond, Http.Download.lookUp, hclip, hfile]
        rfl
      | some file =>
        rw [Http.respond_whole hclip hfile]
        exact .sent hoffered

end Answers

/-- A whole clip is sent just where a file is held under a name that is looked up. The request fails
just where the path of such a name, or of what a link there leads to, is too long. There is no other
answer but that nothing is found. -/
structure Gated (files : Tree) (dir : Path) (home : Location) (name : String)
    (response : Http.Response) : Prop where
  whole : ∀ content, response.status = 200 ∧ response.bytes? = some content ↔
    Offered name ∧ dir.Roomy name ∧ ∃ file, Holds files dir home name file ∧ file.content = content
  fails : response.status = 500 ↔ Offered name ∧ (¬ dir.Roomy name ∨ Strays files dir home name)
  answered : (∃ content, response.status = 200 ∧ response.bytes? = some content) ∨
    response.status = 404 ∨ response.status = 500

/-- A whole clip is sent just where a file stands under a name of the shape, and else nothing is
found. -/
structure Exact (files : Tree) (home : Location) (name : String) (response : Http.Response) :
    Prop where
  whole : ∀ content, response.status = 200 ∧ response.bytes? = some content ↔
    Shaped name.toList ∧ ∃ file, files.entry? (home ++ [name]) = some (.file file) ∧
      file.content = content
  answered : (∃ content, response.status = 200 ∧ response.bytes? = some content) ∨
    response.status = 404

section Gate

variable {around : Surroundings} {get : Request} {settings : Settings} {files : Tree} {dir : Path}
  {home : Location} {name : String} {response : Http.Response}

theorem Gated.exact (h : Gated files dir home name response)
    (hbreak : name.toList.getLast? ≠ some '\n') (hroomy : dir.Roomy name)
    (hlink : ∀ target, files.entry? (home ++ [name]) ≠ some (.link target)) :
    Exact files home name response where
  whole := by
    have shaped : Offered name ↔ Shaped name.toList := by
      refine ⟨fun hoffered => hoffered.resolve_right ?_, .inl⟩
      rintro ⟨cs, hcs, -⟩
      rw [hcs, List.getLast?_concat] at hbreak
      exact hbreak rfl
    have held : ∀ file, Holds files dir home name file ↔
        files.entry? (home ++ [name]) = some (.file file) := by
      refine fun file => ⟨fun hholds => hholds.resolve_right ?_, .inl⟩
      rintro ⟨⟨target, htarget⟩, -⟩
      exact hlink target htarget
    intro content
    simp only [h.whole, shaped, held, hroomy, true_and]
  answered := by
    refine h.answered.imp_right fun hother => hother.resolve_right fun hfails => ?_
    rcases (h.fails.mp hfails).2 with hlong | ⟨⟨target, htarget⟩, -⟩
    · exact hlong hroomy
    · exact hlink target htarget

theorem gated_of_action (hwants : Wants get name) (hslash : '/' ∉ name.toList)
    (hsettings : around.settings = .ok settings)
    (hdir : around.files.place (Path.ofText settings.outputDirectory) = .ok home)
    (hhome : around.files.entry? home = some .directory) :
    ∃ response, Dispatch.action around get = .respond response ∧
      Gated around.files (Path.ofText settings.outputDirectory) home name response := by
  obtain ⟨response, haction, hanswers⟩ := action_answers hwants hslash hsettings
  have proper : Offered name → Proper name :=
    fun hoffered => proper_of_isClipName (isClipName_iff.mpr hoffered)
  refine ⟨response, haction, fun content => ?_, ?_, hanswers.answered⟩
  · refine (hanswers.whole content).trans (and_congr_right fun hoffered => ?_)
    simp only [found_iff hdir hhome (proper hoffered), and_assoc, exists_and_left]
  · refine hanswers.fails.trans (and_congr_right fun hoffered => ?_)
    exact lost_iff hdir hhome (proper hoffered)

/-- Exactly which requests for a whole clip get one, and when one fails. -/
theorem download_gated (hwants : Wants get name) (hslash : '/' ∉ name.toList)
    (hsettings : around.settings = .ok settings)
    (hdir : around.files.place (Path.ofText settings.outputDirectory) = .ok home)
    (hhome : around.files.entry? home = some .directory) :
    ∃ response, Dispatch.action around get = .respond response ∧
      Gated around.files (Path.ofText settings.outputDirectory) home name response ∧
      (name.toList.getLast? ≠ some '\n' → (Path.ofText settings.outputDirectory).Roomy name →
        (∀ target, around.files.entry? (home ++ [name]) ≠ some (.link target)) →
        Exact around.files home name response) := by
  obtain ⟨response, haction, hgated⟩ := gated_of_action hwants hslash hsettings hdir hhome
  exact ⟨response, haction, hgated, hgated.exact⟩

end Gate

namespace Sample

open Source.Sample (longName longName_isTooLong longName_toList mem_longName)

def offering : Settings := { Settings.defaults with outputDirectory := "/out" }

/-- A clip, and a file whose name has a line break more. -/
def offers : Surroundings where
  settings := .ok offering
  files := ⟨[(["out"], .directory), (["out", "a.mp4"], .file ⟨[1], 0, false⟩),
    (["out", "a.mp4\n"], .file ⟨[2], 0, false⟩)], []⟩
  programDirectory := ""
  activeRenders := none

def wanting (name : String) : Request := ⟨"GET", "/exports/" ++ name, [], []⟩

theorem wants_wanting (name : String) : Wants (wanting name) name := ⟨rfl, rfl, rfl⟩

theorem place_offering :
    offers.files.place (Path.ofText offering.outputDirectory) = .ok ["out"] := by
  decide +kernel

theorem shaped_longName (n : Nat) : Shaped (longName (n + 1)).toList :=
  ⟨'a', List.replicate n 'a', longName_toList (n + 1), by decide, fun c hc =>
    List.eq_of_mem_replicate hc ▸ by decide⟩

theorem unslashed_longName (n : Nat) : '/' ∉ (longName n).toList := by
  intro hslash
  rcases mem_longName hslash with hletter | hend
  · exact absurd hletter (by decide)
  · exact absurd hend (by decide)

theorem action_longName {n : Nat} (h : Tree.nameLimit < n + 5) : ∃ response,
    Dispatch.action offers (wanting (longName (n + 1))) = .respond response ∧
      response.status = 500 := by
  obtain ⟨response, haction, hgated⟩ := gated_of_action (wants_wanting (longName (n + 1)))
    (unslashed_longName (n + 1)) rfl place_offering (by decide)
  have cramped : ¬ (Path.ofText offering.outputDirectory).Roomy (longName (n + 1)) := fun hroomy =>
    Bool.noConfusion ((longName_isTooLong (n := n + 1) h).symm.trans hroomy.name)
  exact ⟨response, haction, hgated.fails.mpr ⟨.inl (shaped_longName n), .inl cramped⟩⟩

end Sample

open Sample in
/-- A clip is sent under its own name. -/
theorem download_gated_clip : Wants (wanting "a.mp4") "a.mp4" ∧
    offers.files.place (Path.ofText offering.outputDirectory) = .ok ["out"] ∧
    ∃ response, Dispatch.action offers (wanting "a.mp4") = .respond response ∧
      response.status = 200 ∧ response.bytes? = some [1] := by
  obtain ⟨response, haction, -, hexact⟩ :=
    download_gated (wants_wanting "a.mp4") (by decide) rfl place_offering (by decide)
  have roomy : (Path.ofText offering.outputDirectory).Roomy "a.mp4" :=
    ⟨by decide +kernel, by decide +kernel⟩
  have shaped : Shaped "a.mp4".toList := ⟨'a', [], rfl, by decide, nofun⟩
  have unlinked : ∀ target, offers.files.entry? (["out"] ++ ["a.mp4"]) ≠ some (.link target) := nofun
  exact ⟨wants_wanting "a.mp4", place_offering, response, haction,
    ((hexact (by decide) roomy unlinked).whole _).mpr ⟨shaped, _, rfl, rfl⟩⟩

open Sample in
/-- A file is sent whose name is no clip's, and a request for a name that no file can have fails. -/
theorem download_unshaped :
    (¬ Shaped "a.mp4\n".toList ∧ ∃ response,
      Dispatch.action offers (wanting "a.mp4\n") = .respond response ∧
        response.status = 200 ∧ response.bytes? = some [2]) ∧
    ∃ response, Dispatch.action offers (wanting (Source.Sample.longName 252)) = .respond response ∧
      response.status = 500 := by
  refine ⟨⟨fun hshaped => absurd hshaped.getLast? (by decide), ?_⟩,
    action_longName (n := 251) (by decide)⟩
  obtain ⟨response, haction, hgated⟩ :=
    gated_of_action (wants_wanting "a.mp4\n") (by decide) rfl place_offering (by decide)
  have offered : Offered "a.mp4\n" :=
    .inr ⟨"a.mp4".toList, by decide, 'a', [], rfl, by decide, nofun⟩
  have roomy : (Path.ofText offering.outputDirectory).Roomy "a.mp4\n" :=
    ⟨by decide +kernel, by decide +kernel⟩
  exact ⟨response, haction, (hgated.whole _).mpr ⟨offered, roomy, _, .inl rfl, rfl⟩⟩

end ClipRender.Rendering
