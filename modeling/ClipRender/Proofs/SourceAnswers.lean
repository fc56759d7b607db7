import ClipRender.Proofs.Files.Leading
import ClipRender.Proofs.SourceContainment

set_option autoImplicit false

/-!
How every reference is answered. The path of a file below the input directory is given, and where
there is none the source is not found. Three things are told otherwise: a null character in the
name, a circle of links on the way, and a path too long for the system.
-/

namespace ClipRender.Source

open Files (File Location Named Overlong Path Resolves Stored Tree)

def Below (directory : Path) (place : Location) : Prop :=
  ∃ names ≠ [], Path.absolute place = { directory with names := directory.names ++ names }

/-- The way to a name in a directory leads to a place. -/
def EndsAt (tree : Tree) (directory : Path) (name : String) (place : Location) : Prop :=
  ∃ n, Resolves tree n [] (directory.child (fileName name)).names place

def NotFound (failure : Failure) : Prop :=
  ∃ error, failure = .reported error ∧ error.kind = .sourceNotFound

/-- What is answered where the way to a name comes to an end. -/
inductive Answered (tree : Tree) (directory : Path) (reference : Option String) (place : Location) :
    Except Failure Path → Prop
  | outside (hbelow : ¬ Below directory place) :
    Answered tree directory reference place (.error (.reported (.invalidReference reference)))
  | found {file : File} (hbelow : Below directory place) (hshort : ¬ Overlong tree place)
    (hfile : tree.entry? place = some (.file file)) :
    Answered tree directory reference place (.ok (.absolute place))
  | missing (hbelow : Below directory place) (hshort : ¬ Overlong tree place)
    (hfile : ∀ file, tree.entry? place ≠ some (.file file)) :
    Answered tree directory reference place (.error (.reported .sourceMissing))
  | refused (hbelow : Below directory place) (hlong : Overlong tree place) :
    Answered tree directory reference place (.error (.file .nameTooLong))

variable {tree : Tree} {inputDirectory directory path : Path} {reference : Option String}
  {name : String} {place : Location} {failure : Failure}

theorem isBelow_absolute : isBelow directory (.absolute place) = true ↔ Below directory place :=
  isBelow_iff

theorem sanitizeId_plain (name : String) : ∀ c ∈ (sanitizeId name).toList, c ≠ '\x00' := by
  intro c hc
  rw [sanitizeId, String.toList_ofList] at hc
  obtain ⟨d, _, rfl⟩ := List.mem_map.mp (List.mem_of_mem_take hc)
  split
  · next hd =>
    rintro rfl
    exact absurd hd (by decide)
  · decide

/-- Only a name that counts as it is can have a null character. -/
theorem named_of_fileName (h : Tree.hasNull (fileName name) = true) : Named name := by
  rw [fileName] at h
  split at h
  · exact Files.named_of_hasNull h
  · rw [Tree.hasNull, List.contains_iff_mem, String.toList_append, List.mem_append] at h
    rcases h with hid | hend
    · exact absurd rfl (sanitizeId_plain name _ hid)
    · exact absurd hend (by decide)

theorem fileName_ne_empty (hname : Named name) : fileName name ≠ "" := by
  rw [fileName]
  split
  · exact hname.not_empty
  · intro h
    have := congrArg String.toList h
    simp at this

theorem resolve_unnamed (hname : lastName (reference.getD "") = name) (h : ¬ Named name) :
    resolve tree inputDirectory reference = .error (.reported (.invalidReference reference)) := by
  have hidle : name = "" ∨ name = "." ∨ name = ".." := by
    rw [Files.named_iff] at h
    tauto
  rw [resolve, hname, if_pos hidle]

theorem anchor_child (hdirectory : tree.canonical inputDirectory = .ok directory) (name : String) :
    (directory.child name).anchor ≠ .relative := by
  have hanchor : directory.anchor ≠ .relative := Tree.canonical_anchor hdirectory
  exact hanchor

theorem plain_child (hdirectory : tree.canonical inputDirectory = .ok directory)
    (hplain : Tree.hasNull (fileName name) = false) :
    ∀ other ∈ (directory.child (fileName name)).names, Tree.hasNull other = false := by
  intro other hother
  have hclear := (Tree.canonical_ok_iff.mp hdirectory).2.1
  rcases List.mem_append.mp hother with habove | hlast
  · exact Bool.not_eq_true _ ▸ List.any_eq_false.mp hclear other habove
  · rwa [List.mem_singleton.mp hlast]

section Named

variable (hdirectory : tree.canonical inputDirectory = .ok directory)
  (hname : lastName (reference.getD "") = name) (hnamed : Named name)

include hdirectory hname hnamed

theorem resolve_named : resolve tree inputDirectory reference = (do
    let path ← tree.canonical (directory.child (fileName name))
    if !isBelow directory path then .error (.reported (.invalidReference reference))
    else
      match tree.file? path with
      | .ok (some _) => .ok path
      | .ok none => .error (.reported .sourceMissing)
      | .error fault => .error (.file fault)) := by
  have hleads : ¬ (name = "" ∨ name = "." ∨ name = "..") :=
    not_or.mpr ⟨hnamed.not_empty, not_or.mpr ⟨hnamed.not_dot, hnamed.not_up⟩⟩
  rw [resolve, hname, if_neg hleads, hdirectory]
  rfl

theorem resolve_unfollowed (h : tree.canonical (directory.child (fileName name)) = .error failure) :
    resolve tree inputDirectory reference = .error failure := by
  rw [resolve_named hdirectory hname hnamed, h]
  rfl

theorem resolve_followed (h : tree.canonical (directory.child (fileName name)) = .ok path)
    (hfailure : resolve tree inputDirectory reference = .error failure) :
    NotFound failure ∨ failure = .file .nameTooLong := by
  rw [resolve_named hdirectory hname hnamed, h] at hfailure
  simp only [bind, Except.bind] at hfailure
  split at hfailure
  · obtain rfl := Except.error.inj hfailure
    exact .inl ⟨_, rfl, rfl⟩
  split at hfailure
  · exact nomatch hfailure
  · obtain rfl := Except.error.inj hfailure
    exact .inl ⟨_, rfl, rfl⟩
  · next fault hfault =>
    obtain rfl := Except.error.inj hfailure
    exact .inr (congrArg Failure.file (Tree.file?_error hfault))

variable (hstored : Stored tree) (hplain : Tree.hasNull (fileName name) = false)

include hstored hplain

theorem resolve_ended (hends : EndsAt tree directory name place) :
    Answered tree directory reference place (resolve tree inputDirectory reference) := by
  obtain ⟨n, hwalk⟩ := hends
  have hpath := hstored.canonical_of_resolves (anchor_child hdirectory (fileName name))
    (plain_child hdirectory hplain) hwalk
  rw [resolve_named hdirectory hname hnamed, hpath]
  simp only [bind, Except.bind]
  split
  · next hoff =>
    refine .outside fun hbelow => ?_
    rw [isBelow_absolute.mpr hbelow] at hoff
    exact nomatch hoff
  next hon =>
  have hbelow : Below directory place := isBelow_absolute.mp (by simpa using hon)
  rcases Tree.file?_real hstored.sound (hwalk.real (.root tree)) with
    ⟨hlong, hfile⟩ | ⟨hshort, ⟨file, hentry, hfile⟩ | ⟨hnone, hfile⟩⟩
  · rw [hfile]
    exact .refused hbelow hlong
  · rw [hfile]
    exact .found hbelow hshort hentry
  · rw [hfile]
    exact .missing hbelow hshort hnone

theorem resolve_refused (hends : EndsAt tree directory name place) (hbelow : Below directory place)
    (hlong : Overlong tree place) :
    resolve tree inputDirectory reference = .error (.file .nameTooLong) := by
  have hanswer := resolve_ended hdirectory hname hnamed hstored hplain hends
  generalize resolve tree inputDirectory reference = outcome at hanswer
  cases hanswer with
  | outside hoff => exact absurd hbelow hoff
  | found _ hshort => exact absurd hlong hshort
  | missing _ hshort => exact absurd hlong hshort
  | refused => rfl

theorem resolve_place {file : File}
    (hplace : tree.place (directory.child (fileName name)) = .ok place)
    (hfile : tree.entry? place = some (.file file)) (hbelow : Below directory place)
    (hshort : ¬ Overlong tree place) :
    resolve tree inputDirectory reference = .ok (.absolute place) := by
  obtain ⟨-, -, n, -, hwalk⟩ := Tree.walkTrail_ok_iff.mp hplace
  have hsteps : (directory.child (fileName name)).trail.steps =
      (directory.child (fileName name)).names := List.append_nil _
  have hstart : Tree.startFrom tree.workingDirectory
      (directory.child (fileName name)).trail.anchor = [] :=
    Tree.startFrom_eq_nil (anchor_child hdirectory (fileName name))
  rw [hsteps, hstart] at hwalk
  have hnames : ∀ other ∈ (directory.child (fileName name)).names, other ≠ "" := by
    intro other hother
    rcases List.mem_append.mp hother with habove | hlast
    · exact (hstored.canonical_named hdirectory other habove).not_empty
    · rw [List.mem_singleton.mp hlast]
      exact fileName_ne_empty hnamed
  have hanswer := resolve_ended hdirectory hname hnamed hstored hplain
    ⟨n, hwalk.resolves hnames⟩
  generalize resolve tree inputDirectory reference = outcome at hanswer
  cases hanswer with
  | outside hoff => exact absurd hbelow hoff
  | found => rfl
  | missing _ _ hnone => exact absurd hfile (hnone file)
  | refused _ hlong => exact absurd hlong hshort

end Named

theorem resolve_failure (hstored : Stored tree)
    (hdirectory : tree.canonical inputDirectory = .ok directory)
    (hname : lastName (reference.getD "") = name)
    (h : resolve tree inputDirectory reference = .error failure) :
    NotFound failure ∨ (failure = .nullByte ∧ Tree.hasNull (fileName name) = true) ∨
      ((∃ text, failure = .linkLoop text) ∧
        ∀ place, ¬ EndsAt tree directory name place) ∨
      (failure = .file .nameTooLong ∧
        ∀ place, EndsAt tree directory name place → Overlong tree place) := by
  by_cases hnamed : Named name
  swap
  · obtain rfl := Except.error.inj ((resolve_unnamed hname hnamed).symm.trans h)
    exact .inl ⟨_, rfl, rfl⟩
  by_cases hnull : Tree.hasNull (fileName name) = true
  · have hrefused := resolve_unfollowed hdirectory hname hnamed (Tree.canonical_null hnull)
    exact .inr (.inl ⟨Except.error.inj (h.symm.trans hrefused), hnull⟩)
  have hplain : Tree.hasNull (fileName name) = false := Bool.not_eq_true _ ▸ hnull
  cases hpath : tree.canonical (directory.child (fileName name)) with
  | error other =>
    have hsame := resolve_unfollowed hdirectory hname hnamed hpath
    obtain rfl := Except.error.inj (hsame.symm.trans h)
    obtain ⟨hcircle, hendless⟩ := hstored.canonical_circle
      (anchor_child hdirectory (fileName name)) (plain_child hdirectory hplain) hpath
    exact .inr (.inr (.inl ⟨hcircle, fun place ⟨n, hwalk⟩ => hendless n place hwalk⟩))
  | ok path =>
    rcases resolve_followed hdirectory hname hnamed hpath h with hnone | rfl
    · exact .inl hnone
    refine .inr (.inr (.inr ⟨rfl, fun place hends => ?_⟩))
    have hanswer := resolve_ended hdirectory hname hnamed hstored hplain hends
    rw [h] at hanswer
    cases hanswer with
    | refused _ hlong => exact hlong

/-- A reference is answered by where the way to its last name ends. What the system comes to is
found there if the path to it is not too long. Whatever fails is told as a source that is not found,
but for a null character, a circle of links and a path too long. -/
theorem resolve_answers (hstored : Stored tree)
    (hdirectory : tree.canonical inputDirectory = .ok directory)
    (hname : FinalPart (reference.getD "") name) :
    (¬ Named name →
      resolve tree inputDirectory reference = .error (.reported (.invalidReference reference))) ∧
    (Tree.hasNull (fileName name) = true → resolve tree inputDirectory reference = .error .nullByte) ∧
    (Named name → Tree.hasNull (fileName name) = false →
      (∀ place, EndsAt tree directory name place →
        Answered tree directory reference place (resolve tree inputDirectory reference)) ∧
      ∀ place file, tree.place (directory.child (fileName name)) = .ok place →
        tree.entry? place = some (.file file) → Below directory place → ¬ Overlong tree place →
        resolve tree inputDirectory reference = .ok (.absolute place)) ∧
    ∀ failure, resolve tree inputDirectory reference = .error failure →
      NotFound failure ∨ (failure = .nullByte ∧ Tree.hasNull (fileName name) = true) ∨
        ((∃ text, failure = .linkLoop text) ∧
          ∀ place, ¬ EndsAt tree directory name place) ∨
        (failure = .file .nameTooLong ∧
          ∀ place, EndsAt tree directory name place → Overlong tree place) := by
  have hlast : lastName (reference.getD "") = name := finalPart_iff.mp hname
  refine ⟨resolve_unnamed hlast, fun hnull => ?_, fun hnamed hplain => ⟨fun place hends => ?_, ?_⟩,
    fun failure => resolve_failure hstored hdirectory hlast⟩
  · exact resolve_unfollowed hdirectory hlast (named_of_fileName hnull) (Tree.canonical_null hnull)
  · exact resolve_ended hdirectory hlast hnamed hstored hplain hends
  · exact fun place file => resolve_place hdirectory hlast hnamed hstored hplain

namespace Sample

theorem linked_stored : Stored linked :=
  .of_entries (.of_entries (by decide) (by decide)) (by decide)

end Sample

theorem resolve_answers_linked : Stored Sample.linked ∧
    Sample.linked.canonical (.ofText "/media/in") = .ok (.absolute ["media", "videos"]) ∧
    FinalPart "x/../a" "a" ∧
    resolve Sample.linked (.ofText "/media/in") (some "x/../a") =
      .ok (.absolute ["media", "videos", "b.mp4"]) := by
  have hdirectory : Sample.linked.canonical (.ofText "/media/in") =
      .ok (.absolute ["media", "videos"]) := by decide +kernel
  have hname : FinalPart "x/../a" "a" := by decide +kernel
  have hshort : ¬ Overlong Sample.linked ["media", "videos", "b.mp4"] :=
    Files.not_overlong (by decide +kernel) (by decide +kernel)
  obtain ⟨-, -, hfound, -⟩ :=
    @resolve_answers _ _ _ (some "x/../a") _ Sample.linked_stored hdirectory hname
  refine ⟨Sample.linked_stored, hdirectory, hname, ?_⟩
  exact (hfound (by decide) (by decide +kernel)).2 ["media", "videos", "b.mp4"] Sample.video
    (by decide +kernel) (by decide +kernel) ⟨["b.mp4"], by decide, rfl⟩ hshort

namespace Sample

theorem circle_stored : Stored circle :=
  .of_entries (.of_entries (by decide) (by decide)) (by decide)

def longName (n : Nat) : String := String.ofList (List.replicate n 'a') ++ ".mp4"

section LongName

variable (n : Nat)

theorem longName_toList : (longName n).toList = List.replicate n 'a' ++ ".mp4".toList := by
  rw [longName, String.toList_append, String.toList_ofList]

variable {n}

theorem mem_longName {c : Char} (h : c ∈ (longName n).toList) : c = 'a' ∨ c ∈ ".mp4".toList := by
  rw [longName_toList] at h
  exact (List.mem_append.mp h).imp_left List.eq_of_mem_replicate

theorem longName_ne {s : String} (h : s.toList.length < n) : longName n ≠ s := by
  rintro rfl
  rw [longName_toList, List.length_append, List.length_replicate] at h
  omega

theorem longName_final : FinalPart (longName n) (longName n) := by
  refine ⟨fun c hc => ?_, .inl rfl⟩
  have hend : ".mp4".toList.all (fun c => decide (c ≠ '/' ∧ c ≠ '\\')) = true := rfl
  rw [separates_iff, Bool.not_eq_false]
  rcases mem_longName hc with rfl | hmem
  · rfl
  · exact List.all_eq_true.mp hend c hmem

theorem longName_file : fileName (longName n) = longName n := by
  rw [fileName, if_pos]
  rw [longName_toList, List.contains_iff_mem]
  exact List.mem_append_right _ (by decide)

theorem longName_plain : Tree.hasNull (longName n) = false := by
  rw [Tree.hasNull, Bool.eq_false_iff, ne_eq, List.contains_iff_mem]
  intro hnull
  rcases mem_longName hnull with hletter | hend
  · exact absurd hletter (by decide)
  · exact absurd hend (by decide)

theorem longName_isTooLong (h : Tree.nameLimit < n + 4) : Tree.isTooLong (longName n) = true := by
  have hletters : ((List.replicate n 'a').flatMap String.utf8EncodeChar).length = n := by
    simp [show 'a'.utf8Size = 1 from rfl]
  have hend : (".mp4".toList.flatMap String.utf8EncodeChar).length = 4 := rfl
  rw [Tree.isTooLong, Utf8.encode, longName_toList, List.flatMap_append, List.length_append,
    hletters, hend]
  exact decide_eq_true h

theorem longName_named (h : Tree.nameLimit < n + 4) : Named (longName n) := by
  rw [Tree.nameLimit] at h
  have hlong : 2 < n := by omega
  exact ⟨longName_ne (Nat.lt_trans (by decide) hlong), longName_ne (Nat.lt_trans (by decide) hlong),
    longName_ne hlong⟩

theorem longName_ends (h : Tree.nameLimit < n + 4) :
    EndsAt circle (.absolute ["media", "in"]) (longName n) ["media", "in", longName n] := by
  have hmedia : circle.entry? ["media"] = some .directory := rfl
  have hin : circle.entry? ["media", "in"] = some .directory := rfl
  have hne : ∀ s : String, s.toList.length < 252 → longName n ≠ s := by
    intro s hs
    rw [Tree.nameLimit] at h
    exact longName_ne (by omega)
  have hlong : circle.entry? ["media", "in", longName n] = none := by
    have hloop := beq_false_of_ne (hne "loop.mp4" (by decide))
    have hl := beq_false_of_ne (hne "l.mp4" (by decide))
    have hsecret := beq_false_of_ne (hne "secret.mp4" (by decide))
    simp [Tree.entry?, circle, List.lookup_cons, hloop, hl, hsecret]
  rw [EndsAt, longName_file]
  refine ⟨0, .down (by decide) ?_ (.down (by decide) ?_ (.down (longName_named h) ?_ .stay))⟩
  · intro target hlink
    cases hmedia.symm.trans hlink
  · intro target hlink
    cases hin.symm.trans hlink
  · intro target hlink
    cases hlong.symm.trans hlink

theorem resolve_longName (h : Tree.nameLimit < n + 4) :
    resolve circle (.ofText "/media/in") (some (longName n)) = .error (.file .nameTooLong) := by
  have hdirectory : circle.canonical (.ofText "/media/in") = .ok (.absolute ["media", "in"]) := by
    decide +kernel
  have hplain : Tree.hasNull (fileName (longName n)) = false :=
    (congrArg Tree.hasNull longName_file).trans longName_plain
  exact resolve_refused hdirectory (finalPart_iff.mp longName_final) (longName_named h)
    circle_stored hplain (longName_ends h) ⟨[longName n], by simp, rfl⟩
    (.inr ⟨["media", "in"], longName n, [], rfl, rfl, longName_isTooLong h⟩)

end LongName

end Sample

/-- Three names that are not told as a source that is not found. -/
theorem resolve_untold :
    resolve Sample.circle (.ofText "/media/in") (some "a\x00.mp4") = .error .nullByte ∧
      resolve Sample.circle (.ofText "/media/in") (some "loop.mp4") =
        .error (.linkLoop "/media/in/loop.mp4") ∧
      resolve Sample.circle (.ofText "/media/in")
          (some (String.ofList (List.replicate 252 'a') ++ ".mp4")) =
        .error (.file .nameTooLong) :=
  ⟨by decide +kernel, by decide +kernel, Sample.resolve_longName (by decide)⟩

end ClipRender.Source
