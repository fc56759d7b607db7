import ClipRender.Proofs.Http.Downloading
import ClipRender.Proofs.Rendering.Run
import ClipRender.Service.Session

set_option autoImplicit false

/-!
The key in front of starting and cancelling renders. Who hands in no key or another one is refused
by the key handed in alone, before anything that the service knows is looked at. Who hands in the
key is never refused for it. A body that cannot be read is refused before the key is looked at, by
the body alone.
-/

namespace ClipRender

theorem Utf8.encode_injective : Function.Injective Utf8.encode := by
  intro s t hsame
  have bytes : s.toList.utf8Encode = t.toList.utf8Encode := congrArg List.toByteArray hsame
  rwa [String.utf8Encode_toList, String.utf8Encode_toList, String.toByteArray_inj] at bytes

theorem Access.keyMatches_iff {provided : Option String} {expected : String} :
    Access.keyMatches provided expected = true ↔ provided = some expected ∧ expected ≠ "" := by
  cases provided with
  | none => simp [keyMatches]
  | some key =>
    rw [keyMatches, Bool.and_eq_true, beq_iff_eq, Utf8.encode_injective.eq_iff, Option.some_inj]
    constructor
    · rintro ⟨hsome, rfl⟩
      exact ⟨rfl, by simpa using hsome⟩
    · rintro ⟨rfl, hsome⟩
      exact ⟨by simpa using hsome, rfl⟩

namespace Http

open Dispatch

/-- The key that a request hands in, as the service reads it. -/
def Request.key? (request : Request) : Option String := request.header? (Text.lower keyHeader)

/-- A request that starts or cancels a render. -/
inductive Request.Guarded (request : Request) : Prop
  | start (hmethod : request.method = "POST")
    (hpath : Route.ofPath? request.path = some .exportClip) : Guarded request
  | cancel {jobId : String} (hmethod : request.method = "DELETE")
    (hpath : Route.ofPath? request.path = some (.cancelExport jobId)) : Guarded request

/-- No body of the request is looked at, or one that can be read. -/
def Request.Readable (request : Request) : Prop :=
  request.method = "POST" → ∃ content, Body.read request = .ok content

/-- The refusal that a key gets which is not the right one. -/
def refusalFor (key? : Option String) : Response :=
  keyRefusal (if (key?.getD "").isEmpty then "Missing" else "Invalid")

theorem status_refusalFor (key? : Option String) : (refusalFor key?).status = 401 := rfl

section Guard

variable {settings : Settings} {key : String} {around : Surroundings} {request : Request}
  {response : Response} {jobId : String}

theorem guard_of_key (hkey : settings.apiKey = some key) (hsome : key ≠ "")
    (hright : request.key? = some key) : Dispatch.guard settings request = none := by
  have fits : Access.keyMatches request.key? key = true :=
    Access.keyMatches_iff.mpr ⟨hright, hsome⟩
  rw [Request.key?] at fits
  simp [Dispatch.guard, hkey, fits]

theorem guard_of_other (hkey : settings.apiKey = some key) (hsome : key ≠ "")
    (hwrong : request.key? ≠ some key) :
    Dispatch.guard settings request = some (refusalFor request.key?) := by
  have differs : Access.keyMatches request.key? key = false := by
    rw [← Bool.not_eq_true, Access.keyMatches_iff]
    exact fun hright => hwrong hright.1
  rw [Request.key?] at differs
  rw [Dispatch.guard, hkey]
  dsimp only
  rw [differs, Bool.or_false, if_neg (by simpa using hsome), refusalFor, Request.key?]
  split <;> rfl

theorem obstacle_of_guard (hup : around.activeRenders.isSome = true)
    (hsettings : around.settings = .ok settings) :
    obstacle around request = Dispatch.guard settings request := by
  have up : around.activeRenders.isNone = false := by simpa using hup
  rw [obstacle, up, hsettings]
  rfl

theorem action_of_obstacle (hguarded : request.Guarded) (hreadable : request.Readable)
    (hobstacle : obstacle around request = some response) :
    action around request = .respond response := by
  cases hguarded with
  | start hmethod hpath =>
    obtain ⟨content, hread⟩ := hreadable hmethod
    rw [action_of_route hpath hmethod, follow, exportClip, hread]
    dsimp only
    rw [hobstacle]
  | cancel hmethod hpath =>
    rw [action_of_route hpath hmethod, follow, cancelExport, hobstacle]

theorem action_unread (hguarded : request.Guarded) (hmethod : request.method = "POST")
    (hread : Body.read request = .error response) : action around request = .respond response := by
  cases hguarded with
  | start _ hpath => rw [action_of_route hpath hmethod, follow, exportClip, hread]
  | cancel hdelete => exact absurd (hmethod.symm.trans hdelete) (by decide)

theorem status_unread (hread : Body.read request = .error response) : response.status = 400 := by
  rw [Body.read] at hread
  split at hread
  · contradiction
  split at hread
  · contradiction
  split at hread
  · obtain rfl := Except.error.inj hread
    rfl
  split at hread
  · contradiction
  · obtain rfl := Except.error.inj hread
    rfl
  · obtain rfl := Except.error.inj hread
    rfl

theorem status_of_action (hguarded : request.Guarded) (hfree : obstacle around request = none)
    (hrespond : action around request = .respond response) : response.status = 400 := by
  cases hguarded with
  | start hmethod hpath =>
    rw [action_of_route hpath hmethod, follow, exportClip] at hrespond
    cases hread : Body.read request with
    | error refusal =>
      rw [hread] at hrespond
      obtain rfl := Action.respond.inj hrespond
      exact status_unread hread
    | ok content =>
      rw [hread, hfree] at hrespond
      dsimp only at hrespond
      split at hrespond
      · obtain rfl := Action.respond.inj hrespond
        rfl
      · contradiction
  | cancel hmethod hpath =>
    rw [action_of_route hpath hmethod, follow, cancelExport, hfree] at hrespond
    contradiction

end Guard

section Answers

theorem status_finish (request : Request) (response : Response) :
    (CrossOrigin.finish request response).status = response.status := by
  rw [CrossOrigin.finish]
  split
  · rw [CrossOrigin.mark]
    split <;> rfl
  · rfl

/-- Of a request only the origin shows in what goes out. -/
theorem finish_congr {first second : Request} (response : Response)
    (h : first.header? "origin" = second.header? "origin") :
    CrossOrigin.finish first response = CrossOrigin.finish second response := by
  rw [CrossOrigin.finish, CrossOrigin.finish, h]

theorem status_outcomeResponse (jobId : String) (outcome : Rendering.Outcome) :
    (outcomeResponse jobId outcome).status ≠ 401 := by
  cases outcome with
  | exported clip => simp [outcomeResponse, Response.json]
  | cancelled found => cases found <;> simp [outcomeResponse, Response.json, Response.refusal]
  | failed failure =>
    cases failure with
    | reported error =>
      change error.kind.status ≠ 401
      cases error.kind <;> decide
    | _ => exact (by decide : (500 : Nat) ≠ 401)

end Answers

end Http

section Digits

open Json

/-!
A whole number of more digits than are read is a body that cannot be read.
-/

theorem Utf8.next_ascii {b : UInt8} (hb : b.toNat < 0x80) (rest : Utf8.Bytes) :
    Utf8.next b rest = (some (Char.ofNat b.toNat), 0) := by
  have lead : Utf8.lead? b.toNat = some ⟨b.toNat, 0, 0x80, 0xBF⟩ := if_pos hb
  rw [Utf8.next, lead]
  cases rest with
  | nil => rfl
  | cons first more => simp [Utf8.follow]

theorem Utf8.characters_ascii {bytes : Utf8.Bytes} (h : ∀ b ∈ bytes, b.toNat < 0x80) :
    Utf8.characters bytes = bytes.map fun b => some (Char.ofNat b.toNat) := by
  induction bytes with
  | nil => rw [Utf8.characters, List.map_nil]
  | cons b rest ih =>
    have single := Utf8.next_ascii (h b List.mem_cons_self) rest
    rw [Utf8.characters, single, List.drop_zero,
      ih fun c hc => h c (List.mem_cons_of_mem b hc), List.map_cons]

theorem Json.Encoding.withoutSurrogates_ascii {bytes : Utf8.Bytes}
    (h : ∀ b ∈ bytes, b.toNat < 0x80) : Json.Encoding.withoutSurrogates bytes = bytes := by
  fun_induction Json.Encoding.withoutSurrogates bytes with
  | case1 a b c rest hsurrogate ih =>
    have ascii := h a List.mem_cons_self
    rw [hsurrogate.1] at ascii
    contradiction
  | case2 a b c rest hother ih => rw [ih fun d hd => h d (List.mem_cons_of_mem a hd)]
  | case3 => rfl

theorem text?_digits (n : Nat) : Json.Encoding.text? (List.replicate (n + 4) 0x31)
    = some (String.ofList (List.replicate (n + 4) '1')) := by
  have ascii : ∀ b ∈ List.replicate (n + 4) (0x31 : UInt8), b.toNat < 0x80 := by
    intro b hb
    rw [List.eq_of_mem_replicate hb]
    decide
  have form : Json.Encoding.detect (List.replicate (n + 4) 0x31)
      = (.utf8, List.replicate (n + 4) 0x31) := rfl
  have found : ∀ k, (List.replicate k (some '1')).mapM id = some (List.replicate k '1') := by
    intro k
    induction k with
    | zero => rfl
    | succ k ih => simp [List.replicate_succ, ih]
  rw [Json.Encoding.text?, form]
  dsimp only
  rw [Json.Encoding.withoutSurrogates_ascii ascii, Utf8.decode?, Utf8.characters_ascii ascii,
    List.map_replicate]
  exact congrArg _ (found (n + 4))

theorem number_digits {n : Nat} (h : digitLimit < n + 1) :
    number 0 ('1' :: List.replicate n '1') = .error .tooManyDigits := by
  have whole : wholeDigits ('1' :: List.replicate n '1') = '1' :: List.replicate n '1' := by
    rw [← List.replicate_succ]
    change (List.replicate (n + 1) '1').takeWhile Char.isDigit = _
    rw [List.takeWhile_replicate]
    rfl
  rw [number]
  · simp only [List.length_nil, List.drop_zero]
    rw [whole]
    simp [fraction, exponent, h]
  · simp

theorem read_digits {n : Nat} (h : digitLimit < n) :
    Json.read (String.ofList (List.replicate n '1')) = .error .tooManyDigits := by
  obtain ⟨m, rfl⟩ := Nat.exists_eq_add_one_of_ne_zero (Nat.ne_zero_of_lt h)
  have start : skipBlanks 0 ('1' :: List.replicate m '1') = (0, '1' :: List.replicate m '1') := rfl
  have noWord : word? 0 ('1' :: List.replicate m '1') = none := rfl
  have found : ∀ fuel, value (fuel + 1) depthLimit 0 ('1' :: List.replicate m '1')
      = .error .tooManyDigits := by
    intro fuel
    rw [value]
    · rw [plain, noWord]
      exact number_digits h
    all_goals simp
  rw [Json.read, String.toList_ofList, List.replicate_succ, start]
  dsimp only
  rw [found]

theorem read_body_digits {request : Http.Request} {n : Nat} (h : digitLimit < n + 4)
    (htype : (request.header? "content-type").any Http.Body.isJson = true)
    (hbody : request.body = List.replicate (n + 4) 0x31) :
    Http.Body.read request = .error Http.Body.unparsable := by
  rw [Http.Body.read, hbody, htype, text?_digits]
  dsimp only
  rw [read_digits h]
  rfl

end Digits

namespace Service.State

open Http

variable {s : State} {key label : String} {request : Request} {response : Response}

/-- The service is up, and starting and cancelling renders takes a key. -/
structure Locked (s : State) (key : String) : Prop where
  up : (s.appPool.bind s.pool?).isSome = true
  settings : ∃ settings, s.settings = .ok settings ∧ settings.apiKey = some key
  key : key ≠ ""

/-- The request is answered at once. Of the state nothing changes but that a task has been there and
what it came to, so no pool is told anything, the world stays as it is and nothing is to come. -/
def Answers (s : State) (label : String) (request : Request) (response : Response) : Prop :=
  s.startRequest label request = { s with
    numbers := s.numbers + 1
    tasks := s.tasks ++ [⟨s.numbers + 1, label, .request request "", none⟩]
    done := s.done ++
      [⟨s.world.now, label, .response (CrossOrigin.finish request response)⟩] }

theorem answers_of_respond (h : Dispatch.action s.surroundings request = .respond response) :
    s.Answers label request response := by
  rw [Answers, startRequest, h]
  rfl

theorem Locked.activeRenders (h : s.Locked key) : s.surroundings.activeRenders.isSome = true := by
  rw [surroundings, Option.isSome_map]
  exact h.up

theorem Locked.refuses (h : s.Locked key) (label : String) (hguarded : request.Guarded)
    (hreadable : request.Readable) (hwrong : request.key? ≠ some key) :
    s.Answers label request (refusalFor request.key?) := by
  obtain ⟨settings, hsettings, hkey⟩ := h.settings
  have blocked : Dispatch.obstacle s.surroundings request = some (refusalFor request.key?) := by
    rw [obstacle_of_guard h.activeRenders hsettings]
    exact guard_of_other hkey h.key hwrong
  exact answers_of_respond (action_of_obstacle hguarded hreadable blocked)

/-- No answer that comes at once refuses the key, and none comes unless the body is at fault. -/
theorem Locked.admits (h : s.Locked key) (hguarded : request.Guarded)
    (hright : request.key? = some key) :
    ∀ d ∈ (s.startRequest label request).done,
      d ∈ s.done ∨ ∃ response, d.result = .response response ∧ response.status = 400 := by
  obtain ⟨settings, hsettings, hkey⟩ := h.settings
  have free : Dispatch.obstacle s.surroundings request = none := by
    rw [obstacle_of_guard h.activeRenders hsettings]
    exact guard_of_key hkey h.key hright
  intro d hd
  cases haction : Dispatch.action s.surroundings request with
  | respond response =>
    have answers : s.Answers label request response := answers_of_respond haction
    rw [answers] at hd
    rcases List.mem_append.mp hd with hold | hnew
    · exact .inl hold
    · obtain rfl := List.mem_singleton.mp hnew
      exact .inr ⟨_, rfl, (status_finish _ _).trans (status_of_action hguarded free haction)⟩
  | render order =>
    left
    rw [startRequest, haction] at hd
    cases happ : s.appPool <;> rw [happ] at hd <;> exact hd
  | cancel jobId =>
    left
    rw [startRequest, haction] at hd
    cases happ : s.appPool <;> rw [happ] at hd <;> exact hd

theorem status_resultOf {jobId : String} {outcome : Rendering.Outcome}
    (h : resultOf (.request request jobId) outcome = .response response) :
    response.status ≠ 401 := by
  have finished : ∀ {other : Rendering.Outcome}, Result.response (CrossOrigin.finish request
      (Dispatch.outcomeResponse jobId other)) = .response response → response.status ≠ 401 := by
    intro other hsame
    obtain rfl := Result.response.inj hsame
    rw [status_finish]
    exact status_outcomeResponse jobId other
  cases outcome with
  | exported clip => exact finished h
  | cancelled found => exact finished h
  | failed failure =>
    cases failure with
    | aborted => cases h
    | _ => exact finished h

namespace Sample

def locked (key : String) (pool : Rendering.Pool) : State :=
  { State.start (Rendering.Sample.world (Rendering.Sample.engine false))
      [("CLIPPER_API_KEY", key)] with
    pools := [pool]
    appPool := some 0 }

def busyPool : Rendering.Pool :=
  (Rendering.Sample.play false [.order 1 (Rendering.Sample.order "a")]).pool

def start (headers : List (String × String)) (body : Utf8.Bytes) : Request :=
  ⟨"POST", "/api/export-clip", headers, body⟩

def cancel (headers : List (String × String)) : Request :=
  ⟨"DELETE", "/api/export-clip/a", headers, []⟩

def longNumber : Request :=
  start [("content-type", "application/json")] (List.replicate 4301 0x31)

def localPage : Request := cancel [("Origin", "http://localhost:5173")]

theorem guarded_start (headers : List (String × String)) (body : Utf8.Bytes) :
    (start headers body).Guarded :=
  .start rfl (rfl : Route.ofPath? "/api/export-clip" = some .exportClip)

theorem guarded_cancel (headers : List (String × String)) : (cancel headers).Guarded :=
  .cancel rfl (rfl : Route.ofPath? "/api/export-clip/a" = some (.cancelExport "a"))

theorem locked_secret (pool : Rendering.Pool) : (locked "secret" pool).Locked "secret" := by
  have settings : Settings.read [("CLIPPER_API_KEY", "secret")] ""
      = .ok { Settings.defaults with apiKey := some "secret" } := rfl
  exact ⟨rfl, ⟨_, settings, rfl⟩, by decide⟩

theorem locked_accented (pool : Rendering.Pool) : (locked "clé" pool).Locked "clé" := by
  have settings : Settings.read [("CLIPPER_API_KEY", "clé")] ""
      = .ok { Settings.defaults with apiKey := some "clé" } := rfl
  exact ⟨rfl, ⟨_, settings, rfl⟩, by decide⟩

theorem keys_read :
    ((start [("x-clipper-api-key", "wrong")] []).key? = some "wrong" ∧
      (cancel [("X-Clipper-API-Key", "wrong")]).key? = some "wrong" ∧
      (cancel [("X-Clipper-API-Key", "secret")]).key? = some "secret") ∧
    (cancel [("X-Clipper-API-Key", "clé")]).key? ≠ some "clé" ∧
    (cancel []).key? = none ∧ localPage.key? = none ∧ longNumber.key? = none := by
  decide +kernel

end Sample

namespace Sample

theorem readable_cancel (headers : List (String × String)) : (cancel headers).Readable :=
  fun hpost => absurd hpost (by simp [cancel])

theorem longNumber_answers :
    (locked "secret" Rendering.Sample.pool).Answers "a" longNumber Body.unparsable := by
  have json : (longNumber.header? "content-type").any Body.isJson = true := rfl
  have unread : Body.read longNumber = .error Body.unparsable :=
    read_body_digits (n := 4297) (by decide) json rfl
  exact answers_of_respond (action_unread (guarded_start _ _) rfl unread)

/-- The key, sent as it is and read byte by byte. -/
theorem accented_answers :
    ∃ response, response.status = 401 ∧
      (locked "clé" Rendering.Sample.pool).Answers "a"
        (cancel [("X-Clipper-API-Key", "clé")]) response := by
  obtain ⟨_, other, _⟩ := keys_read
  have refused := (locked_accented Rendering.Sample.pool).refuses "a" (guarded_cancel _)
    (readable_cancel _) other
  exact ⟨_, status_refusalFor _, refused⟩

theorem keyless_answers {request : Request} (hguarded : request.Guarded)
    (hreadable : request.Readable) (hnone : request.key? = none) :
    (locked "secret" Rendering.Sample.pool).Answers "a" request (refusalFor none) := by
  have refused := (locked_secret Rendering.Sample.pool).refuses "a" hguarded hreadable
    (by rw [hnone]; exact nofun)
  rwa [hnone] at refused

theorem localPage_differs :
    CrossOrigin.finish (cancel []) (refusalFor none)
      ≠ CrossOrigin.finish localPage (refusalFor none) := by
  intro hsame
  have headers := congrArg Response.headers hsame
  revert headers
  decide +kernel

end Sample

end Service.State

end ClipRender
