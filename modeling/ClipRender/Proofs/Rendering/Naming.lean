import ClipRender.Http.Download
import ClipRender.Proofs.Binary64.Wholes
import ClipRender.Proofs.Rendering.Placing

set_option autoImplicit false

/-!
The names of outputs. Each tells its time and its random text, is offered for download, and is
different from every name under which an output is written.
-/

namespace ClipRender.Rendering

open Files Http

def hexDigits : List Char := "0123456789abcdef".toList

/-- Random text in hexadecimal, and enough of it for a name. -/
structure IsToken (token : String) : Prop where
  digits : ∀ c ∈ token.toList, c ∈ hexDigits
  long : 8 ≤ token.toList.length

def milliseconds (now : Binary64) : Except Binary64.NoWhole Int :=
  (now * Binary64.ofNat 1000).truncate

def shown (token : String) : List Char := token.toList.take 8

section Tokens

theorem digitChar_mem : ∀ k < 16, Nat.digitChar k ∈ hexDigits := by decide

theorem mem_hexDigits_of_toDigits (n : Nat) : ∀ c ∈ Nat.toDigits 16 n, c ∈ hexDigits := by
  induction n using Nat.strongRecOn with
  | ind n ih =>
    intro c hc
    rw [Nat.toDigits_eq_if (by decide)] at hc
    split at hc
    · next hsmall =>
      obtain rfl := List.mem_singleton.mp hc
      exact digitChar_mem n hsmall
    · next hlarge =>
      rcases List.mem_append.mp hc with hupper | hlast
      · exact ih (n / 16) (by omega) c hupper
      · obtain rfl := List.mem_singleton.mp hlast
        exact digitChar_mem _ (Nat.mod_lt n (by decide))

theorem isToken_tokenText (count : Nat) : IsToken (World.tokenText count) := by
  have block : ∀ c ∈ Text.hexDigits 8 count, c ∈ hexDigits := by
    intro c hc
    rcases List.mem_append.mp hc with hzero | hdigit
    · rw [List.eq_of_mem_replicate hzero]
      decide
    · exact mem_hexDigits_of_toDigits count c hdigit
  have long : 8 ≤ (Text.hexDigits 8 count).length := by
    simp only [Text.hexDigits, List.length_append, List.length_replicate]
    omega
  constructor
  · simp only [World.tokenText, String.toList_append, String.toList_ofList, List.mem_append]
    rintro c (((hc | hc) | hc) | hc) <;> exact block c hc
  · simp only [World.tokenText, String.toList_append, String.toList_ofList, List.length_append]
    omega

end Tokens

section Wholes

theorem digit_of_mem_repr {n : Nat} {c : Char} (h : c ∈ n.repr.toList) : c.isDigit = true := by
  rw [Nat.toList_repr] at h
  exact Nat.isDigit_of_mem_toDigits (by decide) (by decide) h

theorem repr_injective {m n : Nat} (h : m.repr = n.repr) : m = n := by
  have digits := congrArg String.toList h
  rw [Nat.toList_repr, Nat.toList_repr] at digits
  have value := congrArg (Nat.ofDigitChars 10 · 0) digits
  simpa only [Nat.ofDigitChars_ten_toDigits] using value

theorem mem_toString {m : Int} {c : Char} (h : c ∈ (toString m).toList) :
    c.isDigit = true ∨ c = '-' := by
  cases m with
  | ofNat n => exact .inl (digit_of_mem_repr h)
  | negSucc n =>
    change c ∈ ("-" ++ (n + 1).repr).toList at h
    rw [String.toList_append, List.mem_append] at h
    exact h.symm.imp digit_of_mem_repr List.mem_singleton.mp

theorem repr_ne_minus (n m : Nat) : n.repr ≠ "-" ++ m.repr := by
  intro h
  have minus : '-' ∈ n.repr.toList := by
    rw [h, String.toList_append]
    exact List.mem_cons_self
  exact absurd (digit_of_mem_repr minus) (by decide)

theorem toString_injective {m n : Int} (h : toString m = toString n) : m = n := by
  cases m with
  | ofNat m =>
    cases n with
    | ofNat n => exact congrArg Int.ofNat (repr_injective h)
    | negSucc n => exact absurd h (repr_ne_minus m (n + 1))
  | negSucc m =>
    cases n with
    | ofNat n => exact absurd h.symm (repr_ne_minus n (m + 1))
    | negSucc n =>
      have same := congrArg String.toList h
      change ("-" ++ (m + 1).repr).toList = ("-" ++ (n + 1).repr).toList at same
      rw [String.toList_append, String.toList_append, List.append_cancel_left_eq] at same
      have next := repr_injective (String.toList_injective same)
      rw [Nat.succ_inj.mp next]

end Wholes

section Names

variable {now other : Binary64} {token twin name : String}

theorem isFinite_milliseconds {s : Bool} {a : Nat} (hnow : Binary64.Sized s a now)
    (ha : a + 10 < 1024) : (now * Binary64.ofNat 1000).isFinite = true := by
  have thousand := Binary64.isWhole_ofNat (n := 1000) (by decide)
  exact (hnow.mul (thousand.sized (by decide)) ha).isFinite

theorem exists_milliseconds (hnow : (now * Binary64.ofNat 1000).isFinite = true) :
    ∃ m, milliseconds now = .ok m := by
  rw [milliseconds, Binary64.truncate]
  cases hproduct : now * Binary64.ofNat 1000 with
  | finite negative rank inRange => exact ⟨_, rfl⟩
  | infinity => simp [hproduct, Binary64.isFinite] at hnow
  | nan => simp [hproduct, Binary64.isFinite] at hnow

theorem outputName_ok_iff : outputName now token = .ok name ↔ ∃ m, milliseconds now = .ok m ∧
    name.toList = "clip_".toList ++
      ((toString m).toList ++ '_' :: (shown token ++ Download.ending)) := by
  have chars : ∀ m : Int,
      ("clip_" ++ toString m ++ "_" ++ String.ofList (token.toList.take 8) ++ ".mp4").toList
        = "clip_".toList ++ ((toString m).toList ++ '_' :: (shown token ++ Download.ending)) := by
    intro m
    simp [shown, Download.ending]
  constructor
  · intro h
    obtain ⟨m, hm, hname⟩ := bind_eq_ok h
    refine ⟨m, ?_, ?_⟩
    · cases hwhole : (now * Binary64.ofNat 1000).truncate with
      | error fault => simp [hwhole, Except.mapError] at hm
      | ok whole =>
        rw [hwhole] at hm
        rw [milliseconds, hwhole]
        exact congrArg Except.ok (Except.ok.inj hm)
    · rw [← Except.ok.inj hname]
      exact chars m
  · rintro ⟨m, hm, hname⟩
    rw [milliseconds] at hm
    rw [← chars m] at hname
    rw [outputName, hm, String.toList_injective hname]
    rfl

theorem exists_outputName (hnow : (now * Binary64.ofNat 1000).isFinite = true) (token : String) :
    ∃ name, outputName now token = .ok name := by
  obtain ⟨m, hm⟩ := exists_milliseconds hnow
  exact ⟨_, outputName_ok_iff.mpr ⟨m, hm, String.toList_ofList⟩⟩

theorem outputName_inj (h : outputName now token = .ok name)
    (k : outputName other twin = .ok name) :
    milliseconds now = milliseconds other ∧ shown token = shown twin := by
  obtain ⟨m, hm, hname⟩ := outputName_ok_iff.mp h
  obtain ⟨n, hn, hagain⟩ := outputName_ok_iff.mp k
  have rest := List.append_cancel_left (hname.symm.trans hagain)
  -- Neither digits nor a minus sign are underscores, so the first of these ends the time.
  have first : ∀ (m : Int) (cs : List Char),
      ((toString m).toList ++ '_' :: cs).takeWhile (· ≠ '_') = (toString m).toList := by
    intro m cs
    rw [List.takeWhile_append_of_pos]
    · simp
    · intro c hc
      rcases mem_toString hc with hdigit | rfl
      · refine decide_eq_true ?_
        rintro rfl
        exact absurd hdigit (by decide)
      · decide
  have same : (toString m).toList = (toString n).toList := by
    rw [← first m, rest, first n]
  obtain rfl : m = n := toString_injective (String.toList_injective same)
  have digits := (List.cons.inj (List.append_cancel_left rest)).2
  exact ⟨hm.trans hn.symm, List.append_cancel_right digits⟩

theorem outputName_congr (htime : milliseconds now = milliseconds other)
    (htoken : shown token = shown twin) (h : outputName now token = .ok name) :
    outputName other twin = .ok name := by
  obtain ⟨m, hm, hname⟩ := outputName_ok_iff.mp h
  exact outputName_ok_iff.mpr ⟨m, htime ▸ hm, htoken ▸ hname⟩

theorem isClipName_eq (h : name.toList.getLast? ≠ some '\n') :
    Download.isClipName name = Download.isClip name.toList := by
  rw [Download.isClipName, if_neg h]

/-- Names of outputs are offered for download. -/
theorem isClipName_of_outputName (htoken : IsToken token) (h : outputName now token = .ok name) :
    Download.isClipName name = true := by
  obtain ⟨m, _, hname⟩ := outputName_ok_iff.mp h
  have inner : ∀ c ∈ "lip_".toList ++ ((toString m).toList ++ '_' :: shown token),
      Download.isNext c = true := by
    intro c hc
    rcases List.mem_append.mp hc with hstart | hc
    · exact List.all_eq_true.mp (by decide : "lip_".toList.all Download.isNext = true) c hstart
    rcases List.mem_append.mp hc with htime | hc
    · rcases mem_toString htime with hdigit | rfl
      · simp [Download.isNext, Download.isFirst, Char.isAlphanum, hdigit]
      · decide
    rcases List.mem_cons.mp hc with rfl | hdigit
    · decide
    · exact List.all_eq_true.mp (by decide : hexDigits.all Download.isNext = true) c
        (htoken.digits c (List.mem_of_mem_take hdigit))
  have whole : name.toList
      = 'c' ::
        ("lip_".toList ++ ((toString m).toList ++ '_' :: shown token) ++ Download.ending) := by
    rw [hname]
    simp
  have last : name.toList.getLast? ≠ some '\n' := by
    simp [whole, Download.ending, List.getLast?_cons, List.getLast?_append]
  rw [isClipName_eq last, whole, Download.isClip]
  simp only [Bool.and_eq_true, List.isSuffixOf_iff_suffix, List.all_eq_true]
  refine ⟨⟨by decide, List.suffix_append _ _⟩, fun c hc => ?_⟩
  rcases List.mem_append.mp hc with hinner | hending
  · exact inner c hinner
  · exact List.all_eq_true.mp (by decide : Download.ending.all Download.isNext = true) c hending

/-- The hidden names under which outputs are written are not. -/
theorem not_isClipName_partName (name : String) : Download.isClipName (partName name) = false := by
  have whole : (partName name).toList = '.' :: (name.toList ++ ".par".toList ++ ['t']) := by
    simp [partName]
  have last : (partName name).toList.getLast? ≠ some '\n' := by
    simp [whole, List.getLast?_cons, List.getLast?_append]
  rw [isClipName_eq last, whole]
  rfl

/-- An output is written beside its place, and no two outputs in one place. -/
theorem partial?_inj {first second part : Path} (h : first.partial? = some part)
    (k : second.partial? = some part) : first = second := by
  obtain ⟨one, hone, rfl⟩ := Option.map_eq_some_iff.mp h
  obtain ⟨two, htwo, hsame⟩ := Option.map_eq_some_iff.mp k
  obtain ⟨anchor, names⟩ := first
  obtain ⟨other, more⟩ := second
  obtain ⟨rfl, hnames⟩ := Files.Path.mk.inj hsame
  obtain ⟨before, hpart⟩ := List.append_inj' hnames rfl
  have name : two = one := partName_injective (List.singleton_inj.mp hpart)
  have split : ∀ {names : List String} {last : String}, names.getLast? = some last →
      names = names.dropLast ++ [last] :=
    fun hlast => (List.dropLast_append_getLast? _ hlast).symm
  have first : names = names.dropLast ++ [one] := split hone
  have second : more = more.dropLast ++ [two] := split htwo
  rw [first, second, before, name]

end Names

theorem accessUrl_eq (base name : String) : ∃ stripped slashes : String,
    base = stripped ++ slashes ∧ (∀ c ∈ slashes.toList, c = '/') ∧
      stripped.toList.getLast? ≠ some '/' ∧
        accessUrl base name = stripped ++ "/exports/" ++ name := by
  refine ⟨String.ofList (base.toList.reverse.dropWhile (· = '/')).reverse,
    String.ofList (base.toList.reverse.takeWhile (· = '/')).reverse, ?_, ?_, ?_, rfl⟩
  · apply String.toList_injective
    rw [String.toList_append, String.toList_ofList, String.toList_ofList, ← List.reverse_append,
      List.takeWhile_append_dropWhile, List.reverse_reverse]
  · intro c hc
    rw [String.toList_ofList, List.mem_reverse] at hc
    exact of_decide_eq_true (List.all_eq_true.mp List.all_takeWhile c hc)
  · rw [String.toList_ofList, List.getLast?_reverse]
    intro hslash
    have := List.head?_dropWhile_not (fun c => decide (c = '/')) base.toList.reverse
    rw [hslash] at this
    contradiction

end ClipRender.Rendering
