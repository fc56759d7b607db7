import ClipRender.Proofs.Files.Housing
import ClipRender.Proofs.Files.Resolving

set_option autoImplicit false

/-!
What is found along a path. A way that comes to an end leads to a place, and by the names down to
that place the entry there is found, unless the system refuses their text. What else can go wrong
is a null character in a name and a circle of links.
-/

namespace ClipRender.Files

/-- A tree that a file system can hold. -/
structure Stored (tree : Tree) : Prop where
  sound : Sound tree
  named : ∀ place, (tree.entry? place).isSome = true → ∀ name ∈ place, Named name
  targets : ∀ place target, tree.entry? place = some (.link target) → Tree.hasNull target = false

/-- Below a directory the names come to one that is longer than a name may be. -/
def Blocked (tree : Tree) (here : Location) (names : List String) : Prop :=
  ∃ before name after, names = before ++ name :: after ∧
    tree.entry? (here ++ before) = some .directory ∧ Tree.isTooLong name = true

/-- The system refuses the path down to a place, for the length of its text or of a name. -/
def Overlong (tree : Tree) (place : Location) : Prop :=
  Tree.trailLimit < (Path.absolute place).text.utf8ByteSize ∨ Blocked tree [] place

variable {tree : Tree} {n fuel links : Nat} {here place : Location} {name target : String}
  {names rest steps : List String} {ahead : List Pending} {followed : Followed}

/-- No null character is in a link's target. -/
def Entry.isPlain : Entry → Bool
  | .link target => !Tree.hasNull target
  | _ => true

theorem Stored.of_entries (hsound : Sound tree)
    (h : ∀ entry ∈ tree.entries, (∀ name ∈ entry.1, Named name) ∧ entry.2.isPlain = true) :
    Stored tree := by
  refine ⟨hsound, fun place hsome name hname => ?_, fun place target hlink => ?_⟩
  · obtain ⟨entry, hentry⟩ := Option.isSome_iff_exists.mp hsome
    exact (h _ (Tree.mem_entries hentry (List.ne_nil_of_mem hname))).1 name hname
  · have hplace : place ≠ [] := by
      rintro rfl
      cases hlink
    simpa [Entry.isPlain] using (h _ (Tree.mem_entries hlink hplace)).2

theorem Sound.over (h : Sound tree) {below : List String}
    (hsome : (tree.entry? (place ++ name :: below)).isSome = true) :
    tree.entry? place = some .directory := by
  induction below using List.reverseRecOn with
  | nil =>
    have above := h.above _ hsome
    rwa [List.dropLast_concat] at above
  | append_singleton below last ih =>
    have above := h.above _ hsome
    rw [← List.cons_append, ← List.append_assoc, List.dropLast_concat] at above
    exact ih (by rw [above]; rfl)

namespace Blocked

theorem nil (tree : Tree) (here : Location) : ¬ Blocked tree here [] := by
  rintro ⟨before, name, after, hsplit, _⟩
  simp at hsplit

theorem cons (h : Blocked tree (here ++ [name]) rest) : Blocked tree here (name :: rest) := by
  obtain ⟨before, long, after, rfl, hbefore, hlong⟩ := h
  exact ⟨name :: before, long, after, rfl, by rwa [List.append_cons], hlong⟩

theorem of_cons (h : Blocked tree here (name :: rest)) (hshort : Tree.isTooLong name = false) :
    Blocked tree (here ++ [name]) rest := by
  obtain ⟨before, long, after, hsplit, hbefore, hlong⟩ := h
  cases before with
  | nil =>
    obtain ⟨rfl, -⟩ := List.cons.inj hsplit
    simp [hshort] at hlong
  | cons first before =>
    obtain ⟨rfl, rfl⟩ := List.cons.inj hsplit
    exact ⟨before, long, after, rfl, by rwa [List.append_cons] at hbefore, hlong⟩

theorem directory (hsound : Sound tree) (h : Blocked tree here names) :
    tree.entry? here = some .directory := by
  obtain ⟨before, long, after, rfl, hbefore, hlong⟩ := h
  cases before with
  | nil => rwa [List.append_nil] at hbefore
  | cons first before => exact hsound.over (by rw [hbefore]; rfl)

end Blocked

theorem not_overlong (htext : (Path.absolute place).text.utf8ByteSize ≤ Tree.trailLimit)
    (hnames : ∀ name ∈ place, Tree.isTooLong name = false) : ¬ Overlong tree place := by
  rintro (hlong | ⟨before, name, after, rfl, _, hlong⟩)
  · exact Nat.not_lt_of_le htext hlong
  · rw [hnames name (List.mem_append_right before List.mem_cons_self)] at hlong
    exact nomatch hlong

namespace Tree

/-- Where no link is on the way down, a walk stops at a name that is too long, or else finds what is
there. -/
theorem walk_real (hsound : Sound tree) (hhere : tree.entry? here = some .directory)
    (hreal : Real tree (here ++ names)) :
    (Blocked tree here names ∧ tree.walk true (links + 1) here names = .error .nameTooLong) ∨
      (¬ Blocked tree here names ∧ (tree.walk true (links + 1) here names = .ok (here ++ names) ∨
        (tree.entry? (here ++ names) = none ∧ ∃ fault, (fault = .missing ∨ fault = .notDirectory) ∧
          tree.walk true (links + 1) here names = .error fault))) := by
  induction names generalizing here with
  | nil => exact .inr ⟨Blocked.nil tree here, .inl (by rw [List.append_nil]; rfl)⟩
  | cons name rest ih =>
    obtain ⟨hname, hlink⟩ := hreal here name rest rfl
    rw [walk_cons, if_neg hname.not_dot, if_neg hname.not_up]
    by_cases hlong : isTooLong name = true
    · rw [if_pos hlong]
      exact .inl ⟨⟨[], name, rest, rfl, by rwa [List.append_nil], hlong⟩, rfl⟩
    rw [if_neg hlong]
    have hshort : isTooLong name = false := Bool.not_eq_true _ ▸ hlong
    rw [List.append_cons here name rest] at hreal ⊢
    -- Below anything but a directory nothing stands, and no name is looked at.
    have nothing : tree.entry? (here ++ [name]) ≠ some .directory →
        ¬ Blocked tree here (name :: rest) ∧
          (rest ≠ [] → tree.entry? (here ++ [name] ++ rest) = none) := by
      refine fun hother => ⟨fun hblocked => hother ((hblocked.of_cons hshort).directory hsound), ?_⟩
      intro hrest
      obtain ⟨first, more, rfl⟩ := List.exists_cons_of_ne_nil hrest
      by_contra hsome
      exact hother (hsound.over (Option.isSome_iff_ne_none.mpr hsome))
    split
    · next hentry =>
      obtain ⟨hclear, hrest⟩ := nothing (by simp [hentry])
      refine .inr ⟨hclear, ?_⟩
      split
      · next hlast =>
        rw [List.isEmpty_iff.mp hlast, List.append_nil]
        exact .inl rfl
      · next hlast => exact .inr ⟨hrest (by simpa using hlast), _, .inl rfl, rfl⟩
    · next hentry =>
      rcases ih hentry hreal with ⟨hblocked, hwalk⟩ | ⟨hclear, hwalk⟩
      · exact .inl ⟨hblocked.cons, hwalk⟩
      · exact .inr ⟨fun hblocked => hclear (hblocked.of_cons hshort), hwalk⟩
    · next file hentry =>
      obtain ⟨hclear, hrest⟩ := nothing (by simp [hentry])
      refine .inr ⟨hclear, ?_⟩
      split
      · next hlast =>
        rw [List.isEmpty_iff.mp hlast, List.append_nil]
        exact .inl rfl
      · next hlast => exact .inr ⟨hrest (by simpa using hlast), _, .inr rfl, rfl⟩
    · next target hentry => exact absurd hentry (hlink target)

theorem status_real (hsound : Sound tree) (hreal : Real tree place) :
    (Overlong tree place ∧ tree.status (Path.absolute place) = .error .nameTooLong) ∨
      (¬ Overlong tree place ∧ ((∃ entry, tree.entry? place = some entry ∧
          tree.status (Path.absolute place) = .ok entry) ∨
        (tree.entry? place = none ∧ ∃ fault, (fault = .missing ∨ fault = .notDirectory) ∧
          tree.status (Path.absolute place) = .error fault))) := by
  have hsteps : (Path.absolute place).trail.steps = place := List.append_nil _
  have hsize : (Path.absolute place).trail.size ≠ 0 := Path.size_pos _
  by_cases hlong : trailLimit < (Path.absolute place).trail.size
  · refine .inl ⟨.inl hlong, ?_⟩
    rw [status, Tree.place, walkTrail, if_neg hsize, if_pos hlong]
    rfl
  have hplace : tree.place (Path.absolute place) = tree.walk true (linkLimit + 1) [] place := by
    rw [Tree.place, walkTrail, if_neg hsize, if_neg hlong, hsteps]
    rfl
  rw [status, hplace]
  have hroot : tree.entry? [] = some .directory := rfl
  rcases walk_real hsound hroot hreal with ⟨hblocked, hwalk⟩ | ⟨hclear, hwalk⟩
  · exact .inl ⟨.inr hblocked, by rw [hwalk]; rfl⟩
  refine .inr ⟨not_or.mpr ⟨hlong, hclear⟩, ?_⟩
  rcases hwalk with hwalk | ⟨hnone, fault, hfault, hwalk⟩
  · rw [hwalk, List.nil_append]
    cases hentry : tree.entry? place with
    | none => exact .inr ⟨rfl, .missing, .inl rfl, by simp [bind, Except.bind, hentry]⟩
    | some entry => exact .inl ⟨entry, rfl, by simp [bind, Except.bind, hentry]⟩
  · exact .inr ⟨hnone, fault, hfault, by rw [hwalk]; rfl⟩

theorem file?_real (hsound : Sound tree) (hreal : Real tree place) :
    (Overlong tree place ∧ tree.file? (Path.absolute place) = .error .nameTooLong) ∨
      (¬ Overlong tree place ∧ ((∃ file, tree.entry? place = some (.file file) ∧
          tree.file? (Path.absolute place) = .ok (some file)) ∨
        ((∀ file, tree.entry? place ≠ some (.file file)) ∧
          tree.file? (Path.absolute place) = .ok none))) := by
  rw [file?]
  rcases status_real hsound hreal with
    ⟨hlong, hstatus⟩ | ⟨hshort, ⟨entry, hentry, hstatus⟩ | ⟨hnone, fault, hfault, hstatus⟩⟩
  · rw [hstatus]
    exact .inl ⟨hlong, rfl⟩
  · rw [hstatus]
    refine .inr ⟨hshort, ?_⟩
    cases entry with
    | file file => exact .inl ⟨file, hentry, rfl⟩
    | directory | link => exact .inr ⟨by simp [hentry], rfl⟩
  · rw [hstatus]
    refine .inr ⟨hshort, .inr ⟨by simp [hnone], ?_⟩⟩
    rcases hfault with rfl | rfl <;> rfl

theorem place_child {dir : Path} {home : Location} (hdir : tree.place dir = .ok home)
    (hhome : tree.entry? home = some .directory)
    (hpath : (dir.child name).text.utf8ByteSize ≤ trailLimit) :
    ∃ links, tree.place (dir.child name) = tree.walk true (links + 1) home [name] := by
  obtain ⟨-, -, n, hn, hway⟩ := walkTrail_ok_iff.mp hdir
  have hsteps : (dir : Trail).steps = dir.names := List.append_nil _
  have hsteps' : ((dir.child name : Path) : Trail).steps = dir.names ++ [name] := List.append_nil _
  have hsize : (dir.child name).trail.size ≠ 0 := Path.size_pos _
  have hfits : ¬ trailLimit < (dir.child name).trail.size := Nat.not_lt.mpr hpath
  rw [hsteps] at hway
  refine ⟨linkLimit - n, ?_⟩
  rw [Tree.place, walkTrail, if_neg hsize, if_neg hfits, hsteps',
    ← walk_past hway hhome (List.cons_ne_nil _ _), Nat.add_sub_of_le hn]
  rfl

/-- An entry of a directory is found just where it stands, unless its path is too long. Where it is
a link, what is found may stand anywhere. -/
theorem file?_child {dir : Path} {home : Location} (hdir : tree.place dir = .ok home)
    (hhome : tree.entry? home = some .directory) (hname : Proper name) :
    (¬ dir.Roomy name ∧ tree.file? (dir.child name) = .error .nameTooLong) ∨
      (dir.Roomy name ∧ ((∃ target, tree.entry? (home ++ [name]) = some (.link target)) ∨
        (∃ file, tree.entry? (home ++ [name]) = some (.file file) ∧
          tree.file? (dir.child name) = .ok (some file)) ∨
        ((∀ file, tree.entry? (home ++ [name]) ≠ some (.file file)) ∧
          tree.file? (dir.child name) = .ok none))) := by
  rw [file?, status]
  by_cases hpath : (dir.child name).text.utf8ByteSize ≤ trailLimit
  · obtain ⟨links, hplace⟩ := place_child hdir hhome hpath
    rw [hplace, walk_cons, if_neg hname.1, if_neg hname.2]
    cases hlong : isTooLong name with
    | true => exact .inl ⟨fun hroomy => Bool.noConfusion (hlong.symm.trans hroomy.name), rfl⟩
    | false =>
      refine .inr ⟨⟨hpath, hlong⟩, ?_⟩
      cases hentry : tree.entry? (home ++ [name]) with
      | none =>
        refine .inr (.inr ⟨?_, by simp [bind, Except.bind, hentry]⟩)
        rintro file ⟨⟩
      | some entry =>
        cases entry with
        | directory =>
          refine .inr (.inr ⟨?_, by simp [walk, descend, bind, Except.bind, hentry]⟩)
          rintro file ⟨⟩
        | file file => exact .inr (.inl ⟨file, rfl, by simp [bind, Except.bind, hentry]⟩)
        | link target => exact .inl ⟨target, rfl⟩
  · have hsize : (dir.child name).trail.size ≠ 0 := Path.size_pos _
    have hlong : trailLimit < (dir.child name).trail.size := Nat.lt_of_not_le hpath
    refine .inl ⟨fun hroomy => hpath hroomy.path, ?_⟩
    rw [Tree.place, walkTrail, if_neg hsize, if_pos hlong]
    rfl

theorem walk_error {followLast : Bool} {fault : Fault}
    (h : tree.walk followLast links here names = .error fault) :
    fault = .missing ∨ fault = .notDirectory ∨ fault = .nameTooLong ∨ fault = .tooManyLinks := by
  induction links generalizing here names with
  | zero => exact .inr (.inr (.inr (Except.error.inj h).symm))
  | succ links ihLinks =>
    induction names generalizing here with
    | nil => exact nomatch h
    | cons name rest ih =>
      rw [walk_cons] at h
      by_cases hdot : name = "."
      · exact ih (if_pos hdot ▸ h)
      by_cases hup : name = ".."
      · exact ih (if_pos hup ▸ if_neg hdot ▸ h)
      rw [if_neg hdot, if_neg hup] at h
      split at h
      · exact .inr (.inr (.inl (Except.error.inj h).symm))
      split at h
      · split at h
        · exact nomatch h
        · exact .inl (Except.error.inj h).symm
      · exact ih h
      · split at h
        · exact nomatch h
        · exact .inr (.inl (Except.error.inj h).symm)
      · split at h
        · exact nomatch h
        · exact ihLinks h

theorem file?_error {trail : Trail} {fault : Fault} (h : tree.file? trail = .error fault) :
    fault = .nameTooLong := by
  have hstatus : tree.status trail = .error fault ∧
      ¬ (fault = .missing ∨ fault = .notDirectory ∨ fault = .tooManyLinks) := by
    rw [file?] at h
    split at h
    · cases h
    · cases h
    · cases h
    · cases h
    · cases h
    · next hmissing hnotDirectory htooManyLinks hstatus =>
      obtain rfl := Except.error.inj h
      refine ⟨hstatus, ?_⟩
      rintro (rfl | rfl | rfl)
      · exact hmissing rfl
      · exact hnotDirectory rfl
      · exact htooManyLinks rfl
  obtain ⟨hstatus, hother⟩ := hstatus
  rw [status] at hstatus
  cases hplace : tree.place trail with
  | ok place =>
    simp only [hplace, bind, Except.bind] at hstatus
    split at hstatus
    · cases hstatus
    · exact absurd (.inl (Except.error.inj hstatus).symm) hother
  | error found =>
    simp only [hplace, bind, Except.bind] at hstatus
    obtain rfl := Except.error.inj hstatus
    rw [Tree.place, walkTrail] at hplace
    split_ifs at hplace
    · exact absurd (.inl (Except.error.inj hplace).symm) hother
    · exact (Except.error.inj hplace).symm
    · rcases walk_error hplace with hm | hn | hl | ht
      · exact absurd (.inl hm) hother
      · exact absurd (.inr (.inl hn)) hother
      · exact hl
      · exact absurd (.inr (.inr ht)) hother

end Tree

/-- Every name among the steps is of the kind. -/
def Keeps (P : String → Prop) (steps : List String) : Prop := ∀ text ∈ steps, Named text → P text

namespace Keeps

variable {P : String → Prop} {text : String}

theorem head (h : Keeps P (text :: steps)) (hname : Named text) : P text :=
  h text List.mem_cons_self hname

theorem tail (h : Keeps P (text :: steps)) : Keeps P steps :=
  fun other hother => h other (List.mem_cons_of_mem text hother)

theorem append (h : Keeps P names) (k : Keeps P steps) : Keeps P (names ++ steps) := by
  intro text htext
  rcases List.mem_append.mp htext with hmem | hmem
  · exact h text hmem
  · exact k text hmem

end Keeps

namespace Tree

variable {P : String → Prop}

theorem startFrom_eq_nil {anchor : Anchor} (h : anchor ≠ .relative) : startFrom here anchor = [] := by
  cases anchor with
  | relative => exact absurd rfl h
  | root | doubleRoot => rfl

theorem all_startFrom (hhere : ∀ name ∈ here, P name) (anchor : Anchor) :
    ∀ name ∈ startFrom here anchor, P name := by
  cases anchor with
  | relative => exact hhere
  | _ => exact fun name hname => nomatch hname

theorem all_snoc (hhere : ∀ name ∈ here, P name) (hname : P name) :
    ∀ other ∈ here ++ [name], P other := by
  intro other hother
  rcases List.mem_append.mp hother with hmem | hmem
  · exact hhere other hmem
  · rwa [List.mem_singleton.mp hmem]

theorem join_all {path : Path} (hpath : ∀ name ∈ path.names, P name)
    (hahead : Keeps P (Pending.texts ahead)) : ∀ name ∈ (join path ahead).names, P name := by
  induction ahead generalizing path with
  | nil => exact hpath
  | cons first rest ih =>
    cases first with
    | linkEnd link =>
      rw [join]
      split
      · exact ih (fun name hname => absurd hname List.not_mem_nil) hahead
      · exact ih hpath hahead
    | piece text =>
      rw [join]
      split_ifs with hskip hup
      · exact ih hpath hahead.tail
      · exact ih (fun name hname => hpath name (List.dropLast_subset _ hname)) hahead.tail
      · have hname : Named text := ⟨(not_or.mp hskip).1, (not_or.mp hskip).2, hup⟩
        exact ih (all_snoc hpath (hahead.head hname)) hahead.tail

/-- If all names to come are of a kind, so are those of the path that is found. Only a null
character in one of them is in the way. -/
theorem follow_all
    (htargets : ∀ place target, tree.entry? place = some (.link target) →
      Keeps P (Pending.texts (Pending.ofTarget target)))
    (hhere : ∀ name ∈ here, P name) (hahead : Keeps P (Pending.texts ahead))
    (hfollowed : ∀ link spot, followed.lookup link = some (some spot) → ∀ name ∈ spot, P name) :
    (∃ path, tree.follow fuel here followed ahead = .ok path ∧ ∀ name ∈ path.names, P name) ∨
      (tree.follow fuel here followed ahead = .error .nullByte ∧
        ∃ name, P name ∧ hasNull name = true) := by
  fun_induction follow tree fuel here followed ahead with
  | case1 | case2 => exact .inl ⟨_, rfl, hhere⟩
  | case3 here followed fuel link rest ih =>
    refine ih hhere hahead fun other spot hlookup => ?_
    rw [List.lookup_cons] at hlookup
    split at hlookup
    · obtain rfl := Option.some.inj (Option.some.inj hlookup)
      exact hhere
    · exact hfollowed other spot hlookup
  | case4 _ _ _ _ _ _ ih => exact ih hhere hahead.tail hfollowed
  | case5 _ _ _ _ _ ih =>
    exact ih (fun name hname => hhere name (List.dropLast_subset _ hname)) hahead.tail hfollowed
  | case6 here followed fuel text rest hnamed hdown next hnull =>
    have hname := Named.of_not hnamed hdown
    obtain ⟨name, hmem, hnull⟩ := List.any_eq_true.mp hnull
    exact .inr ⟨rfl, name, all_snoc hhere (hahead.head hname) name hmem, hnull⟩
  | case7 here followed fuel text rest _ _ next _ target _ spot hknown ih =>
    exact ih (hfollowed next spot hknown) hahead.tail hfollowed
  | case8 here followed fuel text rest hnamed hdown next _ target _ _ =>
    have hname := Named.of_not hnamed hdown
    refine .inl ⟨_, rfl, ?_⟩
    rw [joinRest]
    split
    · exact join_all (fun name hname => absurd hname List.not_mem_nil) hahead.tail
    · exact join_all (all_snoc hhere (hahead.head hname)) hahead.tail
  | case9 here followed fuel text rest _ _ next _ target hentry _ ih =>
    refine ih (all_startFrom hhere _) ?_ fun other spot hlookup => ?_
    · rw [Pending.texts_append]
      exact (htargets next target hentry).append hahead.tail
    · rw [List.lookup_cons] at hlookup
      split at hlookup
      · cases Option.some.inj hlookup
      · exact hfollowed other spot hlookup
  | case10 here followed fuel text rest hnamed hdown next _ _ ih =>
    have hname := Named.of_not hnamed hdown
    exact ih (all_snoc hhere (hahead.head hname)) hahead.tail hfollowed

theorem join_last {path : Path} (hname : Named name) (front : List Pending) :
    name ∈ (join path (front ++ [.piece name])).names := by
  induction front generalizing path with
  | nil =>
    rw [List.nil_append, join, if_neg (not_or.mpr ⟨hname.not_empty, hname.not_dot⟩),
      if_neg hname.not_up]
    exact List.mem_append_right _ List.mem_cons_self
  | cons first front ih =>
    cases first with
    | linkEnd link =>
      rw [List.cons_append, join]
      split
      · exact ih
      · exact ih
    | piece text =>
      rw [List.cons_append, join]
      split_ifs
      · exact ih
      · exact ih
      · exact ih

theorem later_of_ne {text : String}
    (hlast : ∃ front, front ++ [Pending.piece name] = .piece text :: ahead) (hother : text ≠ name) :
    ∃ front, front ++ [.piece name] = ahead := by
  obtain ⟨front, hsplit⟩ := hlast
  cases front with
  | nil => exact absurd (Pending.piece.inj (List.cons.inj hsplit).1).symm hother
  | cons first later => exact ⟨later, (List.cons.inj hsplit).2⟩

/-- A null character in the last name does not get lost on the way. -/
theorem follow_null (hname : Named name) (hnull : hasNull name = true)
    (hlast : ∃ front, front ++ [Pending.piece name] = ahead)
    (hfuel : ahead.length + followed.toCome tree.entries ≤ fuel) :
    tree.follow fuel here followed ahead = .error .nullByte ∨
      ∃ path, tree.follow fuel here followed ahead = .ok path ∧ name ∈ path.names := by
  have other : ∀ {here : Location} {text : String},
      ¬ (here ++ [text]).any hasNull = true → text ≠ name := by
    rintro here text hplain rfl
    exact hplain (List.any_eq_true.mpr ⟨text, by simp, hnull⟩)
  fun_induction follow tree fuel here followed ahead with
  | case1 =>
    obtain ⟨front, rfl⟩ := hlast
    simp at hfuel
  | case2 =>
    obtain ⟨front, hsplit⟩ := hlast
    simp at hsplit
  | case3 here followed fuel link rest ih =>
    have fewer := Followed.toCome_cons followed link (some here) tree.entries
    refine ih ?_ (by rw [List.length_cons] at hfuel; omega)
    obtain ⟨front, hsplit⟩ := hlast
    cases front with
    | nil => simp at hsplit
    | cons first front => exact ⟨front, (List.cons.inj hsplit).2⟩
  | case4 here followed fuel text rest hskip ih =>
    have hother : text ≠ name := by
      rintro rfl
      exact hskip.elim hname.not_empty hname.not_dot
    exact ih (later_of_ne hlast hother) (by rw [List.length_cons] at hfuel; omega)
  | case5 here followed fuel rest _ ih =>
    exact ih (later_of_ne hlast hname.not_up.symm) (by rw [List.length_cons] at hfuel; omega)
  | case6 => exact .inl rfl
  | case7 here followed fuel text rest _ _ next hplain target _ spot _ ih =>
    exact ih (later_of_ne hlast (other hplain)) (by rw [List.length_cons] at hfuel; omega)
  | case8 here followed fuel text rest _ _ next hplain target _ _ =>
    obtain ⟨front, rfl⟩ := later_of_ne hlast (other hplain)
    refine .inr ⟨_, rfl, ?_⟩
    rw [joinRest]
    split
    · exact join_last hname front
    · exact join_last hname front
  | case9 here followed fuel text rest _ _ next hplain target hentry hnew ih =>
    obtain ⟨front, rfl⟩ := later_of_ne hlast (other hplain)
    have hlookup : tree.entries.lookup next = some (.link target) := by
      simpa [ entry?, next] using hentry
    have fewer := Followed.toCome_enter hlookup hnew none
    refine ih ⟨Pending.ofTarget target ++ .linkEnd next :: front, List.append_assoc _ _ _⟩ ?_
    simp only [Entry.detour, List.length_append, List.length_cons] at fewer hfuel ⊢
    omega
  | case10 here followed fuel text rest _ _ next hplain hentry ih =>
    exact ih (later_of_ne hlast (other hplain)) (by rw [List.length_cons] at hfuel; omega)

end Tree

theorem mem_of_mem_pieces {cs piece : List Char} {c : Char} (h : piece ∈ pieces cs) (hc : c ∈ piece) :
    c ∈ cs := by
  induction cs generalizing piece with
  | nil =>
    obtain rfl : piece = [] := by simpa [pieces] using h
    exact hc
  | cons d rest ih =>
    rw [pieces] at h
    split_ifs at h
    · rcases List.mem_cons.mp h with rfl | hrest
      · cases hc
      · exact List.mem_cons_of_mem d (ih hrest hc)
    · obtain ⟨first, more, hpieces⟩ := List.exists_cons_of_ne_nil (pieces_ne_nil rest)
      rw [hpieces] at h ih
      rcases List.mem_cons.mp h with rfl | hmore
      · rcases List.mem_cons.mp hc with rfl | hfirst
        · exact List.mem_cons_self
        · exact List.mem_cons_of_mem d (ih List.mem_cons_self hfirst)
      · exact List.mem_cons_of_mem d (ih (List.mem_cons_of_mem first hmore) hc)

theorem Pending.mem_texts_ofTarget {text : String} (h : text ∈ texts (ofTarget target)) :
    ∃ piece ∈ pieces target.toList, text = String.ofList piece := by
  have hmem : Pending.piece text ∈ ofTarget target := by
    rw [ofTarget_eq]
    exact List.mem_map_of_mem h
  rw [ofTarget] at hmem
  have hall : Pending.piece text ∈ (pieces target.toList).map fun cs => piece (String.ofList cs) := by
    split at hmem
    · exact hmem
    · exact List.mem_of_mem_tail hmem
  obtain ⟨piece, hpiece, hsame⟩ := List.mem_map.mp hall
  exact ⟨piece, hpiece, (Pending.piece.inj hsame).symm⟩

theorem named_of_hasNull (h : Tree.hasNull name = true) : Named name := by
  refine ⟨?_, ?_, ?_⟩
  · rintro rfl
    exact absurd h (by decide)
  · rintro rfl
    exact absurd h (by decide)
  · rintro rfl
    exact absurd h (by decide)

namespace Tree

variable {path found : Path} {failure : Failure}

theorem canonical_failure (h : tree.canonical path = .error failure) :
    tree.follow (tree.followFuel path) (startFrom tree.workingDirectory path.anchor) []
        (path.names.map .piece) = .error failure ∨
      ∃ found, tree.follow (tree.followFuel path) (startFrom tree.workingDirectory path.anchor) []
          (path.names.map .piece) = .ok found ∧
        ((found.names.any hasNull = true ∧ failure = .nullByte) ∨
          (tree.status found = .error .tooManyLinks ∧ failure = .linkLoop found.text)) := by
  rw [canonical] at h
  cases hfollow : tree.follow (tree.followFuel path) (startFrom tree.workingDirectory path.anchor) []
      (path.names.map .piece) with
  | error other =>
    rw [hfollow] at h
    exact .inl h
  | ok found =>
    rw [hfollow] at h
    refine .inr ⟨found, rfl, ?_⟩
    simp only [bind, Except.bind] at h
    split at h
    · next hnull => exact .inl ⟨hnull, (Except.error.inj h).symm⟩
    · split at h
      · next hloop => exact .inr ⟨hloop, (Except.error.inj h).symm⟩
      · cases h

theorem canonical_null (hnull : hasNull name = true) {dir : Path} :
    tree.canonical (dir.child name) = .error .nullByte := by
  have hfuel : ((dir.child name).names.map Pending.piece).length + Followed.toCome [] tree.entries
      ≤ tree.followFuel (dir.child name) := by
    rw [followFuel_eq, List.length_map]
    omega
  have hlast : ∃ front, front ++ [Pending.piece name] = (dir.child name).names.map .piece :=
    ⟨dir.names.map .piece, by simp [Path.child]⟩
  rw [canonical]
  rcases follow_null (named_of_hasNull hnull) hnull hlast hfuel with hfollow | ⟨found, hfollow, hmem⟩
  · rw [hfollow]
    rfl
  · rw [hfollow]
    dsimp only [bind, Except.bind]
    rw [if_pos (List.any_eq_true.mpr ⟨name, hmem, hnull⟩)]

end Tree

namespace Stored

open Tree

theorem plain_targets (h : Stored tree) (hlink : tree.entry? place = some (.link target)) :
    Keeps (hasNull · = false) (Pending.texts (Pending.ofTarget target)) := by
  intro text htext _
  obtain ⟨piece, hpiece, rfl⟩ := Pending.mem_texts_ofTarget htext
  have hplain := h.targets place target hlink
  rw [hasNull, List.contains_eq_mem, decide_eq_false_iff_not] at hplain ⊢
  rw [String.toList_ofList]
  exact fun hmem => hplain (mem_of_mem_pieces hpiece hmem)

variable {path found : Path} {failure : Failure}

theorem canonical_named (h : Stored tree) (hfound : tree.canonical path = .ok found) :
    ∀ name ∈ found.names, Named name := by
  obtain ⟨hfollow, -, -⟩ := canonical_ok_iff.mp hfound
  have working := h.named tree.workingDirectory (by rw [h.sound.working]; rfl)
  have all := @follow_all tree (tree.followFuel path)
    (startFrom tree.workingDirectory path.anchor) (path.names.map .piece) [] Named
    (fun _ _ _ _ _ hname => hname) (all_startFrom working _) (fun _ _ hname => hname) (by simp)
  rw [hfollow] at all
  rcases all with ⟨_, hsame, hnamed⟩ | ⟨hsame, _⟩
  · obtain rfl := Except.ok.inj hsame
    exact hnamed
  · exact nomatch hsame

section Plain

variable (hstored : Stored tree) (hanchor : path.anchor ≠ .relative)
  (hplain : ∀ name ∈ path.names, hasNull name = false)

include hstored hanchor hplain

theorem follow_plain : ∃ found,
    tree.follow (tree.followFuel path) (startFrom tree.workingDirectory path.anchor) []
      (path.names.map .piece) = .ok found ∧ found.names.any hasNull = false := by
  rw [startFrom_eq_nil hanchor]
  have hahead : Keeps (hasNull · = false) (Pending.texts (path.names.map .piece)) := by
    rw [Pending.texts_pieces]
    exact fun name hname _ => hplain name hname
  have all := @follow_all tree (tree.followFuel path) [] (path.names.map .piece) []
    (hasNull · = false) (fun _ _ hlink => hstored.plain_targets hlink) nofun hahead (by simp)
  rcases all with ⟨found, hfollow, hfound⟩ | ⟨_, name, hname, hnull⟩
  · refine ⟨found, hfollow, ?_⟩
    rw [List.any_eq_false]
    exact fun name hname => Bool.not_eq_true _ ▸ hfound name hname
  · rw [hname] at hnull
    exact nomatch hnull

/-- A way that comes to an end is a canonical path. -/
theorem canonical_of_resolves (hwalk : Resolves tree n [] path.names place) :
    tree.canonical path = .ok (.absolute place) := by
  obtain ⟨found, hfollow, hnull⟩ := hstored.follow_plain hanchor hplain
  have hfuel : (path.names.map Pending.piece).length + Followed.toCome [] tree.entries
      ≤ tree.followFuel path := by
    rw [followFuel_eq, List.length_map]
    omega
  have hfound := follow_eq (.start tree [] path.names) hfuel
    ⟨n, (Pending.texts_pieces path.names).symm ▸ hwalk⟩ (startFrom_eq_nil hanchor ▸ hfollow)
  subst hfound
  refine canonical_ok_iff.mpr ⟨hfollow, hnull, fun hloop => ?_⟩
  rcases status_real hstored.sound (hwalk.real (.root tree)) with
    ⟨_, hstatus⟩ | ⟨_, ⟨_, _, hstatus⟩ | ⟨_, fault, hfault, hstatus⟩⟩
  · exact nomatch hstatus.symm.trans hloop
  · exact nomatch hstatus.symm.trans hloop
  · obtain rfl := Except.error.inj (hstatus.symm.trans hloop)
    exact hfault.elim nofun nofun

/-- The only failure is a circle of links, and then the way has no end. -/
theorem canonical_circle (h : tree.canonical path = .error failure) :
    (∃ text, failure = .linkLoop text) ∧ ∀ n place, ¬ Resolves tree n [] path.names place := by
  constructor
  · obtain ⟨found, hfollow, hnull⟩ := hstored.follow_plain hanchor hplain
    rcases canonical_failure h with hother | ⟨other, hother, ⟨hbad, _⟩ | ⟨_, hloop⟩⟩
    · exact nomatch hfollow.symm.trans hother
    · obtain rfl := Except.ok.inj (hfollow.symm.trans hother)
      exact nomatch hnull.symm.trans hbad
    · exact ⟨_, hloop⟩
  · intro n place hwalk
    exact nomatch h.symm.trans (hstored.canonical_of_resolves hanchor hplain hwalk)

end Plain

end Stored

end ClipRender.Files
