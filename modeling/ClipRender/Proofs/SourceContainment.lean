import ClipRender.Proofs.Files.Making
import ClipRender.Proofs.Files.Resolving
import ClipRender.Source
import Mathlib.Data.List.TakeWhile

set_option autoImplicit false

/-!
What a reference leads to. Only the text after its last slash or backslash counts, and the path
lies below the input directory. It has no link on it unless a circle of links was met on the way.
-/

namespace ClipRender.Source

open Files (File Path Pending Real Resolves Tree anchorOf)

def Separates (c : Char) : Prop := c = '/' ∨ c = '\\'

/-- What follows the last slash or backslash of a text. -/
structure FinalPart (text name : String) : Prop where
  plain : ∀ c ∈ name.toList, ¬ Separates c
  final : text.toList = name.toList ∨
    ∃ before c, Separates c ∧ text.toList = before ++ c :: name.toList

/-- The same path, or failures of one kind: all that a reference adds is its own text. -/
inductive Alike : Except Failure Path → Except Failure Path → Prop
  | same (outcome : Except Failure Path) : Alike outcome outcome
  | refused (first second : Option String) :
    Alike (.error (.reported (.invalidReference first)))
      (.error (.reported (.invalidReference second)))

/-- A file below the input directory. -/
structure Contained (tree : Tree) (inputDirectory path : Path) : Prop where
  anchored : path.anchor ≠ .relative
  existing : ∃ file, tree.file? path = .ok (some file)
  below : ∃ directory, tree.canonical inputDirectory = .ok directory ∧
    ∃ names ≠ [], path = { directory with names := directory.names ++ names }

/-- No link is on the path, which is its own canonical path, and the file itself stands there. -/
structure Settled (tree : Tree) (path : Path) : Prop where
  real : Real tree path.names
  canonical : tree.canonical path = .ok path
  file : ∃ file, tree.entry? path.names = some (.file file)

/-- The way to a name in the input directory comes to an end, without a circle of links. -/
def Ends (tree : Tree) (inputDirectory : Path) (name : String) : Prop :=
  ∃ directory, tree.canonical inputDirectory = .ok directory ∧
    ∃ n place, Resolves tree n [] (directory.child (fileName name)).names place

variable {tree : Tree} {inputDirectory directory path : Path} {reference : Option String}
  {text name : String}

theorem separates_iff (c : Char) : Separates c ↔ decide (c ≠ '/' ∧ c ≠ '\\') = false := by
  rw [decide_eq_false_iff_not, Separates]
  tauto

theorem lastName_eq (h : FinalPart text name) : lastName text = name := by
  have plain : ∀ c ∈ name.toList.reverse, decide (c ≠ '/' ∧ c ≠ '\\') = true := by
    intro c hc
    have hsep := h.plain c (List.mem_reverse.mp hc)
    rw [separates_iff] at hsep
    exact Bool.not_eq_false _ ▸ hsep
  rw [lastName]
  rcases h.final with hwhole | ⟨before, c, hsep, hsplit⟩
  · rw [hwhole, List.takeWhile_eq_self_iff.mpr plain, List.reverse_reverse, String.ofList_toList]
  · rw [hsplit, List.reverse_append, List.reverse_cons, List.append_assoc,
      List.takeWhile_append_of_pos plain, List.singleton_append, List.takeWhile_cons_of_neg,
      List.append_nil, List.reverse_reverse, String.ofList_toList]
    rw [(separates_iff c).mp hsep]
    exact Bool.false_ne_true

theorem finalPart_lastName (text : String) : FinalPart text (lastName text) := by
  have hsplit := @List.takeWhile_append_dropWhile _ (fun c => decide (c ≠ '/' ∧ c ≠ '\\'))
    text.toList.reverse
  have htext : text.toList =
      (text.toList.reverse.dropWhile fun c => decide (c ≠ '/' ∧ c ≠ '\\')).reverse
        ++ (lastName text).toList := by
    rw [lastName, String.toList_ofList, ← List.reverse_append, hsplit, List.reverse_reverse]
  refine ⟨fun c hc hsep => ?_, ?_⟩
  · rw [lastName, String.toList_ofList, List.mem_reverse] at hc
    have := List.mem_takeWhile_imp hc
    rw [(separates_iff c).mp hsep] at this
    exact nomatch this
  · cases hdrop : text.toList.reverse.dropWhile fun c => decide (c ≠ '/' ∧ c ≠ '\\') with
    | nil =>
      rw [hdrop, List.reverse_nil, List.nil_append] at htext
      exact .inl htext
    | cons c before =>
      rw [hdrop, List.reverse_cons, List.append_assoc, List.singleton_append] at htext
      exact .inr ⟨before.reverse, c, (separates_iff c).mpr (Files.dropWhile_head hdrop), htext⟩

theorem finalPart_iff : FinalPart text name ↔ lastName text = name := by
  refine ⟨lastName_eq, ?_⟩
  rintro rfl
  exact finalPart_lastName text

instance (text name : String) : Decidable (FinalPart text name) :=
  decidable_of_iff _ finalPart_iff.symm

theorem resolve_congr {first second : Option String}
    (h : lastName (first.getD "") = lastName (second.getD "")) :
    Alike (resolve tree inputDirectory first) (resolve tree inputDirectory second) := by
  rw [resolve, resolve, h]
  split
  · exact .refused first second
  cases tree.canonical inputDirectory with
  | error failure => exact .same _
  | ok directory =>
    cases hpath : tree.canonical (directory.child (fileName (lastName (second.getD "")))) with
    | error failure =>
      simp only [bind, Except.bind, hpath]
      exact .same _
    | ok path =>
      simp only [bind, Except.bind, hpath]
      split
      · exact .refused first second
      · exact .same _

theorem isBelow_iff : isBelow directory path = true ↔
    ∃ names ≠ [], path = { directory with names := directory.names ++ names } := by
  simp only [isBelow, Bool.and_eq_true, decide_eq_true_eq, List.isPrefixOf_iff_prefix]
  constructor
  · rintro ⟨⟨hanchor, names, hnames⟩, hlength⟩
    refine ⟨names, ?_, ?_⟩
    · rintro rfl
      rw [← hnames, List.append_nil] at hlength
      exact Nat.lt_irrefl _ hlength
    · rw [hanchor, hnames]
  · rintro ⟨names, hne, rfl⟩
    refine ⟨⟨rfl, List.prefix_append _ _⟩, ?_⟩
    rw [List.length_append]
    exact Nat.lt_add_of_pos_right (List.length_pos_iff.mpr hne)

theorem resolve_ok (h : resolve tree inputDirectory reference = .ok path) :
    ∃ directory, tree.canonical inputDirectory = .ok directory ∧
      tree.canonical (directory.child (fileName (lastName (reference.getD "")))) = .ok path ∧
      isBelow directory path = true ∧ ∃ file, tree.file? path = .ok (some file) := by
  rw [resolve] at h
  split at h
  · exact nomatch h
  obtain ⟨directory, hdirectory, h⟩ := bind_eq_ok h
  obtain ⟨found, hfound, h⟩ := bind_eq_ok h
  split at h
  · exact nomatch h
  next hbelow =>
  split at h
  · next file hfile =>
    obtain rfl := Except.ok.inj h
    exact ⟨directory, hdirectory, hfound, by simpa using hbelow, file, hfile⟩
  · exact nomatch h
  · exact nomatch h

theorem contained (h : resolve tree inputDirectory reference = .ok path) :
    Contained tree inputDirectory path := by
  obtain ⟨directory, hdirectory, hpath, hbelow, hfile⟩ := resolve_ok h
  exact ⟨Tree.canonical_anchor hpath, hfile, directory, hdirectory, isBelow_iff.mp hbelow⟩

theorem settled (h : resolve tree inputDirectory reference = .ok path)
    (hends : Ends tree inputDirectory (lastName (reference.getD ""))) : Settled tree path := by
  obtain ⟨directory, hdirectory, hpath, -, file, hfile⟩ := resolve_ok h
  obtain ⟨other, hother, n, place, hwalk⟩ := hends
  obtain rfl := Except.ok.inj (hdirectory.symm.trans hother)
  have hanchor : directory.anchor ≠ .relative := Tree.canonical_anchor hdirectory
  obtain ⟨rfl, hreal, hcanonical⟩ := Tree.canonical_eq hpath hanchor hwalk
  exact ⟨hreal, hcanonical, file, hreal.file hfile⟩

/-- What a reference leads to is a file below the input directory, by a path without links if the
way there comes to an end. References that end in one name have one outcome. -/
theorem resolve_contained (tree : Tree) (inputDirectory : Path) :
    (∀ reference path name, resolve tree inputDirectory reference = .ok path →
      FinalPart (reference.getD "") name →
      Contained tree inputDirectory path ∧ (Ends tree inputDirectory name → Settled tree path)) ∧
    ∀ (first second : Option String) (name : String), FinalPart (first.getD "") name →
      FinalPart (second.getD "") name →
      Alike (resolve tree inputDirectory first) (resolve tree inputDirectory second) := by
  constructor
  · intro reference path name h hname
    rw [← finalPart_iff.mp hname]
    exact ⟨contained h, settled h⟩
  · intro first second name hfirst hsecond
    exact resolve_congr ((finalPart_iff.mp hfirst).trans (finalPart_iff.mp hsecond).symm)

namespace Sample

def video : File := ⟨[], 0, false⟩

/-- The input directory is a link, and so is a video in it. -/
def linked : Tree where
  entries := [(["media"], .directory), (["media", "in"], .link "/media/videos"),
    (["media", "videos"], .directory), (["media", "videos", "a.mp4"], .link "b.mp4"),
    (["media", "videos", "b.mp4"], .file video)]
  workingDirectory := ["media"]

/-- A link to a circle of links and on to another link, which leads out. -/
def circle : Tree where
  entries := [(["media"], .directory), (["media", "in"], .directory),
    (["media", "in", "loop.mp4"], .link "loop.mp4"),
    (["media", "in", "l.mp4"], .link "loop.mp4/../secret.mp4"),
    (["media", "in", "secret.mp4"], .link "/media/secret.mp4"),
    (["media", "secret.mp4"], .file video)]
  workingDirectory := ["media"]

end Sample

theorem linked_ends : Ends Sample.linked (.ofText "/media/in") "a" := by
  have linked : Sample.linked.entry? ["media", "videos", "a.mp4"] = some (.link "b.mp4") := by
    decide
  have target : anchorOf "b.mp4".toList = .relative ∧
      Pending.texts (Pending.ofTarget "b.mp4") = ["b.mp4"] := by decide
  have walk : Resolves Sample.linked 1 [] ["media", "videos", "a.mp4"]
      ["media", "videos", "b.mp4"] := by
    refine .past (by decide) (by decide : _ = some .directory) nofun ?_
    refine .past (by decide) (by decide : _ = some .directory) nofun ?_
    refine .link (by decide) linked ?_
    rw [target.1, target.2]
    exact .past (by decide) (by decide : _ = some (.file Sample.video)) nofun .stay
  have hname : fileName "a" = "a.mp4" := by decide
  refine ⟨.absolute ["media", "videos"], by decide +kernel, 1, ["media", "videos", "b.mp4"], ?_⟩
  rw [hname]
  exact walk

theorem resolve_linked : resolve Sample.linked (.ofText "/media/in") (some "x/../a") =
      .ok (.absolute ["media", "videos", "b.mp4"]) ∧
    Contained Sample.linked (.ofText "/media/in") (.absolute ["media", "videos", "b.mp4"]) ∧
    Settled Sample.linked (.absolute ["media", "videos", "b.mp4"]) := by
  have hresolve : resolve Sample.linked (.ofText "/media/in") (some "x/../a") =
      .ok (.absolute ["media", "videos", "b.mp4"]) := by decide +kernel
  have hname : FinalPart "x/../a" "a" := by decide +kernel
  obtain ⟨contained, settled⟩ :=
    (resolve_contained Sample.linked (.ofText "/media/in")).1 _ _ "a" hresolve hname
  exact ⟨hresolve, contained, settled linked_ends⟩

/-- In a circle the rest of the way is not looked at: there the path found is a link that leads out
of the input directory. -/
theorem resolve_escapes :
    resolve Sample.circle (.ofText "/media/in") (some "l.mp4") =
        .ok (.absolute ["media", "in", "secret.mp4"]) ∧
      Sample.circle.entry? ["media", "in", "secret.mp4"] = some (.link "/media/secret.mp4") ∧
      Sample.circle.canonical (.absolute ["media", "in", "secret.mp4"]) =
        .ok (.absolute ["media", "secret.mp4"]) := by
  decide +kernel

end ClipRender.Source
