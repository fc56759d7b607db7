import ClipRender.Proofs.Files.Walking

set_option autoImplicit false

/-!
Making a directory that is there already, with all those above it, changes nothing.
-/

namespace ClipRender.Files

/-- Each entry stands in a directory, and a walk starts in one. -/
structure Sound (tree : Tree) : Prop where
  above : ∀ place, (tree.entry? place).isSome = true →
    tree.entry? place.dropLast = some .directory
  working : tree.entry? tree.workingDirectory = some .directory

theorem Tree.mem_entries {tree : Tree} {place : Location} {entry : Entry}
    (h : tree.entry? place = some entry) (hplace : place ≠ []) : (place, entry) ∈ tree.entries := by
  rw [Tree.entry?, if_neg (by simpa using hplace)] at h
  obtain ⟨before, after, hsplit, _⟩ := List.lookup_eq_some_iff.mp h
  rw [hsplit]
  exact List.mem_append_right before List.mem_cons_self

theorem Sound.of_entries {tree : Tree}
    (h : ∀ entry ∈ tree.entries, tree.entry? entry.1.dropLast = some .directory)
    (hworking : tree.entry? tree.workingDirectory = some .directory) : Sound tree := by
  refine ⟨fun place hsome => ?_, hworking⟩
  obtain ⟨entry, hentry⟩ := Option.isSome_iff_exists.mp hsome
  by_cases hroot : place = []
  · rw [hroot]
    rfl
  · exact h (place, entry) (Tree.mem_entries hentry hroot)

def wordsOf (cs : List Char) : List (List Char) := (pieces cs).filter (!·.isEmpty)

section Words

variable {a b cs : List Char} {n : Nat}

theorem namesOf_eq (s : String) : namesOf s = (wordsOf s.toList).map String.ofList := rfl

theorem pieces_ne_nil (cs : List Char) : pieces cs ≠ [] := by
  cases cs with
  | nil => simp [pieces]
  | cons c rest =>
    rw [pieces]
    split
    · simp
    · split <;> simp

theorem pieces_append (a b : List Char) : pieces (a ++ '/' :: b) = pieces a ++ pieces b := by
  induction a with
  | nil => simp [pieces]
  | cons c a ih =>
    rw [List.cons_append, pieces, pieces, ih]
    split
    · rfl
    · obtain ⟨first, more, hpieces⟩ := List.exists_cons_of_ne_nil (pieces_ne_nil a)
      simp [hpieces]

theorem pieces_word (h : ∀ c ∈ cs, c ≠ '/') : pieces cs = [cs] := by
  induction cs with
  | nil => rfl
  | cons c rest ih =>
    rw [pieces, ih fun d hd => h d (List.mem_cons_of_mem c hd), if_neg (h c List.mem_cons_self)]

theorem wordsOf_append (a b : List Char) : wordsOf (a ++ '/' :: b) = wordsOf a ++ wordsOf b := by
  rw [wordsOf, pieces_append, List.filter_append]
  rfl

theorem wordsOf_word (h : ∀ c ∈ cs, c ≠ '/') (hne : cs ≠ []) : wordsOf cs = [cs] := by
  rw [wordsOf, pieces_word h]
  simp [hne]

theorem wordsOf_slashes (cs : List Char) (n : Nat) :
    wordsOf (cs ++ List.replicate n '/') = wordsOf cs := by
  induction n with
  | zero => simp
  | succ n ih =>
    rw [List.replicate_succ', ← List.append_assoc, wordsOf_append, ih]
    simp [wordsOf, pieces]

theorem takeWhile_slashes (cs : List Char) :
    ∃ n, cs = List.replicate n '/' ++ cs.dropWhile (· = '/') := by
  refine ⟨(cs.takeWhile (· = '/')).length, ?_⟩
  have slashes : cs.takeWhile (· = '/') = List.replicate (cs.takeWhile (· = '/')).length '/' := by
    refine List.eq_replicate_of_mem fun c hc => ?_
    simpa using List.all_eq_true.mp List.all_takeWhile c hc
  rw [← slashes, List.takeWhile_append_dropWhile]

theorem anchorOf_append (h : ∃ c ∈ a, c ≠ '/') (b : List Char) : anchorOf (a ++ b) = anchorOf a := by
  match a with
  | [] => simp at h
  | [c] =>
    have : c ≠ '/' := by simpa using h
    simp [anchorOf, this]
  | [c, d] =>
    by_cases hc : c = '/'
    · have hd : d ≠ '/' := by simpa [hc] using h
      simp [anchorOf, hc, hd]
    · simp [anchorOf, hc]
  | c :: d :: e :: rest =>
    by_cases hc : c = '/' <;> by_cases hd : d = '/' <;> by_cases he : e = '/' <;>
      simp [anchorOf, hc, hd, he]

theorem anchorOf_slashes {c : Char} (hc : c ≠ '/') (b : List Char) :
    anchorOf (List.replicate n '/' ++ c :: b) = anchorOf (List.replicate n '/') := by
  match n with
  | 0 => simp [anchorOf, hc]
  | 1 => simp [anchorOf, hc]
  | 2 => simp [anchorOf, hc]
  | n + 3 => simp [List.replicate_succ, anchorOf]

theorem dropWhile_head {c : Char} {rest : List Char} {drops : Char → Bool}
    (h : cs.dropWhile drops = c :: rest) : drops c = false := by
  have hne : cs.dropWhile drops ≠ [] := by simp [h]
  have hhead := List.head_dropWhile_not drops hne
  simpa [h] using hhead

theorem takeWhile_plain (cs : List Char) : ∀ c ∈ cs.takeWhile (· ≠ '/'), c ≠ '/' := by
  intro c hc
  simpa using List.all_eq_true.mp List.all_takeWhile c hc

theorem takeWhile_ne_nil {body : List Char} (hbody : cs.dropWhile (· = '/') = body)
    (hne : body ≠ []) : body.takeWhile (· ≠ '/') ≠ [] := by
  obtain ⟨c, rest, rfl⟩ := List.exists_cons_of_ne_nil hne
  have hc : c ≠ '/' := by simpa using dropWhile_head hbody
  rw [List.takeWhile_cons_of_pos (by simpa using hc)]
  simp

/-- What stands before the last word ends in a slash, if there is anything. -/
theorem eq_nil_of_unslashed {before : List Char} (hbefore : cs.dropWhile (· ≠ '/') = before)
    (hsame : before.dropWhile (· = '/') = before) : before = [] := by
  cases before with
  | nil => rfl
  | cons c rest =>
    have hslash : c = '/' := by simpa using dropWhile_head hbefore
    have hother : c ≠ '/' := by simpa using dropWhile_head hsame
    exact absurd hslash hother

theorem above?_split {reversed above : List Char} {name : String}
    (h : above? reversed = some (above, name)) (hne : above ≠ []) :
    ∃ head word before after, reversed.reverse
        = head ++ List.replicate (before + 1) '/' ++ (word ++ List.replicate after '/') ∧
      word ≠ [] ∧ (∀ c ∈ word, c ≠ '/') ∧ name = String.ofList word ∧
      ((above.reverse = head ∧ ∃ c ∈ head, c ≠ '/') ∨
        (head = [] ∧ above.reverse = List.replicate (before + 1) '/')) := by
  obtain ⟨after, hafter⟩ := takeWhile_slashes reversed
  obtain ⟨slashes, hslashes⟩ :=
    takeWhile_slashes ((reversed.dropWhile (· = '/')).dropWhile (· ≠ '/'))
  rw [above?] at h
  generalize hbody : reversed.dropWhile (· = '/') = body at h hafter hslashes
  generalize hbefore : body.dropWhile (· ≠ '/') = before at h hslashes
  generalize hhead : before.dropWhile (· = '/') = head at h hslashes
  have hsplit : body = body.takeWhile (· ≠ '/') ++ before := by
    rw [← hbefore, List.takeWhile_append_dropWhile]
  dsimp only at h
  split at h
  · contradiction
  next hsome =>
  obtain ⟨habove, hname⟩ := Prod.mk.inj (Option.some.inj h)
  have word_ne := takeWhile_ne_nil hbody (by simpa using hsome)
  have plain := takeWhile_plain body
  generalize body.takeWhile (· ≠ '/') = word at hname hsplit word_ne plain
  cases slashes with
  | zero =>
    -- Only a text of one name has no slash before it, and there is nothing above.
    obtain rfl : before = head := by simpa using hslashes
    obtain rfl := eq_nil_of_unslashed hbefore hhead
    exact absurd (by simpa using habove.symm) hne
  | succ slashes =>
    refine ⟨head.reverse, word.reverse, slashes, after, ?_, by simpa using word_ne,
      by simpa using plain, hname.symm, ?_⟩
    · rw [hafter, hsplit, hslashes]
      simp
    · cases head with
      | nil =>
        refine .inr ⟨rfl, ?_⟩
        rw [← habove, hslashes]
        simp
      | cons c rest =>
        have above_eq : c :: rest = above := by simpa [hhead] using habove
        have hc : c ≠ '/' := by simpa using dropWhile_head hhead
        exact .inl ⟨by rw [← above_eq], c, by simp, hc⟩

theorem above?_some {reversed above : List Char} {name : String}
    (h : above? reversed = some (above, name)) (hne : above ≠ []) :
    wordsOf reversed.reverse = wordsOf above.reverse ++ [name.toList] ∧
      anchorOf reversed.reverse = anchorOf above.reverse := by
  obtain ⟨head, word, before, after, hsplit, hword, hplain, rfl, habove⟩ := above?_split h hne
  have words : wordsOf reversed.reverse = wordsOf (head ++ List.replicate before '/') ++ [word] := by
    have last_slash : reversed.reverse
        = head ++ List.replicate before '/' ++ '/' :: (word ++ List.replicate after '/') := by
      rw [hsplit, List.replicate_succ']
      simp
    rw [last_slash, wordsOf_append, wordsOf_slashes word, wordsOf_word hplain hword]
  rw [words, wordsOf_slashes, String.toList_ofList]
  rcases habove with ⟨rfl, hnamed⟩ | ⟨rfl, habove⟩
  · refine ⟨rfl, ?_⟩
    rw [hsplit, List.append_assoc, anchorOf_append hnamed]
  · refine ⟨?_, ?_⟩
    · rw [habove, ← List.nil_append (List.replicate _ _), wordsOf_slashes]
    · obtain ⟨c, rest, rfl⟩ := List.exists_cons_of_ne_nil hword
      rw [hsplit, habove, List.nil_append, List.cons_append,
        anchorOf_slashes (hplain c List.mem_cons_self)]

theorem pieces_plain {piece : List Char} (h : piece ∈ pieces cs) : ∀ c ∈ piece, c ≠ '/' := by
  induction cs generalizing piece with
  | nil =>
    obtain rfl : piece = [] := by simpa [pieces] using h
    simp
  | cons d rest ih =>
    rw [pieces] at h
    by_cases hd : d = '/'
    · rw [if_pos hd] at h
      rcases List.mem_cons.mp h with rfl | hrest
      · simp
      · exact ih hrest
    · rw [if_neg hd] at h
      obtain ⟨first, more, hpieces⟩ := List.exists_cons_of_ne_nil (pieces_ne_nil rest)
      rw [hpieces] at h ih
      rcases List.mem_cons.mp h with rfl | hmore
      · intro c hc
        rcases List.mem_cons.mp hc with rfl | hfirst
        · exact hd
        · exact ih List.mem_cons_self c hfirst
      · exact ih (List.mem_cons_of_mem first hmore)

theorem wordsOf_intercalate {words : List (List Char)}
    (h : ∀ word ∈ words, word ≠ [] ∧ ∀ c ∈ word, c ≠ '/') :
    wordsOf (['/'].intercalate words) = words := by
  induction words with
  | nil => rfl
  | cons word rest ih =>
    obtain ⟨hne, hplain⟩ := h word List.mem_cons_self
    cases rest with
    | nil => rw [List.intercalate_singleton, wordsOf_word hplain hne]
    | cons next rest =>
      rw [List.intercalate_cons_cons, List.append_assoc, List.singleton_append, wordsOf_append,
        wordsOf_word hplain hne, ih fun other hother => h other (List.mem_cons_of_mem word hother)]
      rfl

theorem wordsOf_slashes_append (n : Nat) (cs : List Char) :
    wordsOf (List.replicate n '/' ++ cs) = wordsOf cs := by
  induction n with
  | zero => rfl
  | succ n ih =>
    rw [List.replicate_succ, List.cons_append, ← ih]
    exact wordsOf_append [] _

theorem Anchor.text_eq (anchor : Anchor) :
    ∃ n, anchor.text.toList = List.replicate n '/' ∧ anchorOf (List.replicate n '/') = anchor := by
  cases anchor with
  | relative => exact ⟨0, rfl, rfl⟩
  | root => exact ⟨1, rfl, rfl⟩
  | doubleRoot => exact ⟨2, rfl, rfl⟩

/-- The text of a path is read as the path, but for a dot where there is nothing else. -/
theorem Path.text_read (s : String) : anchorOf (Path.ofText s).text.toList = (Path.ofText s).anchor ∧
    Dotted (Path.ofText s).names ((wordsOf (Path.ofText s).text.toList).map String.ofList) := by
  generalize hpath : Path.ofText s = path
  have plain : ∀ word ∈ path.names.map String.toList, word ≠ [] ∧ ∀ c ∈ word, c ≠ '/' := by
    rw [← hpath]
    intro word hword
    obtain ⟨name, hname, rfl⟩ := List.mem_map.mp hword
    obtain ⟨other, hother, rfl⟩ := List.mem_map.mp (List.mem_filter.mp hname).1
    obtain ⟨hpiece, hne⟩ := List.mem_filter.mp hother
    rw [String.toList_ofList]
    exact ⟨by simpa using hne, pieces_plain hpiece⟩
  have back : (path.names.map String.toList).map String.ofList = path.names := by
    simp [Function.comp_def]
  obtain ⟨n, hslashes, hanchor⟩ := path.anchor.text_eq
  have whole : (path.anchor.text ++ String.intercalate "/" path.names).toList
      = List.replicate n '/' ++ ['/'].intercalate (path.names.map String.toList) := by
    rw [String.toList_append, String.toList_intercalate, hslashes]
    rfl
  have words := wordsOf_intercalate plain
  rw [Path.text]
  split
  · next hempty =>
    have nothing : (path.anchor.text ++ String.intercalate "/" path.names).toList = [] := by
      rw [String.isEmpty_iff.mp hempty]
      rfl
    obtain ⟨hnone, hbody⟩ := List.append_eq_nil_iff.mp (whole.symm.trans nothing)
    have nameless : path.names = [] := by
      rw [hbody] at words
      simpa [wordsOf, pieces] using words.symm
    rw [hnone] at hanchor
    rw [nameless]
    exact ⟨hanchor, .dot .nil⟩
  · rw [whole, wordsOf_slashes_append, words, back]
    refine ⟨?_, .refl _⟩
    cases hnames : path.names.map String.toList with
    | nil => simpa using hanchor
    | cons first rest =>
      obtain ⟨hne, hfirst⟩ := plain first (by rw [hnames]; exact List.mem_cons_self)
      obtain ⟨c, more, rfl⟩ := List.exists_cons_of_ne_nil hne
      have starts : ∃ later, ['/'].intercalate ((c :: more) :: rest) = c :: later := by
        cases rest with
        | nil => exact ⟨more, List.intercalate_singleton⟩
        | cons next rest => exact ⟨_, List.intercalate_cons_cons⟩
      obtain ⟨later, hlater⟩ := starts
      rw [hlater, anchorOf_slashes (hfirst c List.mem_cons_self), hanchor]

end Words

variable {tree : Tree} {here place : Location} {names rest : List String} {n : Nat}

theorem Walks.enters (hsound : Sound tree) (h : Walks tree true n here (names ++ rest) place)
    (hhere : tree.entry? here = some .directory) (hplace : tree.entry? place = some .directory) :
    ∃ m mid, Walks tree true m here names mid ∧ tree.entry? mid = some .directory := by
  generalize hsteps : names ++ rest = steps at h
  have nothing : ∀ here, tree.entry? here = some .directory →
      ∃ m mid, Walks tree true m here [] mid ∧ tree.entry? mid = some .directory :=
    fun here hhere => ⟨0, here, .stay, hhere⟩
  induction h generalizing names with
  | stay =>
    obtain ⟨rfl, rfl⟩ := List.append_eq_nil_iff.mp hsteps
    exact nothing _ hhere
  | dot hdot _ ih =>
    cases names with
    | nil => exact nothing _ hhere
    | cons name names =>
      obtain ⟨rfl, rfl⟩ := List.cons.inj hsteps
      obtain ⟨m, mid, hwalk, hmid⟩ := ih hhere hplace rfl
      exact ⟨m, mid, .dot hdot hwalk, hmid⟩
  | up hup _ ih =>
    cases names with
    | nil => exact nothing _ hhere
    | cons name names =>
      obtain ⟨rfl, rfl⟩ := List.cons.inj hsteps
      obtain ⟨m, mid, hwalk, hmid⟩ := ih (hsound.above _ (by rw [hhere]; rfl)) hplace rfl
      exact ⟨m, mid, .up hup hwalk, hmid⟩
  | down hname hentry _ ih =>
    cases names with
    | nil => exact nothing _ hhere
    | cons name names =>
      obtain ⟨rfl, rfl⟩ := List.cons.inj hsteps
      obtain ⟨m, mid, hwalk, hmid⟩ := ih hentry hplace rfl
      exact ⟨m, mid, .down hname hentry hwalk, hmid⟩
  | last _ hentry => exact absurd hplace hentry
  | @link _ here _ _ target _ hname hentry hfollow _ ih =>
    cases names with
    | nil => exact nothing _ hhere
    | cons name names =>
      obtain ⟨rfl, rfl⟩ := List.cons.inj hsteps
      have starts : tree.entry? (Tree.startFrom here (Trail.ofText target).anchor)
          = some .directory := by
        cases (Trail.ofText target).anchor with
        | relative => exact hhere
        | _ => rfl
      obtain ⟨m, mid, hwalk, hmid⟩ := ih starts hplace (List.append_assoc _ _ _)
      exact ⟨m + 1, mid, .link hname hentry (fun _ => rfl) hwalk, hmid⟩

namespace Tree

theorem ensureDirectory_eq {trail : Trail}
    (h : Walks tree true n (startFrom tree.workingDirectory trail.anchor) trail.names place)
    (hplace : tree.entry? place = some .directory) : (tree.ensureDirectory trail).1 = tree := by
  rw [ensureDirectory]
  cases hmake : tree.makeDirectory trail with
  | error fault => rfl
  | ok later =>
    obtain ⟨own, hown, hrest⟩ := bind_eq_ok hmake
    obtain ⟨_, _, m, _, hwalk⟩ := walkTrail_ok_iff.mp hown
    have steps : (Trail.mk trail.anchor trail.names false trail.size).steps = trail.names :=
      List.append_nil _
    rw [steps] at hwalk
    obtain ⟨_, _, other, hother, hsome⟩ := h.own (by rw [hplace]; rfl)
    obtain ⟨_, rfl⟩ := hwalk.deterministic hother
    cases hentry : tree.entry? own with
    | none => simp [hentry] at hsome
    | some entry => simp [hentry] at hrest

/-- A text leads to a directory, if not too long. -/
def Leads (tree : Tree) (cs : List Char) : Prop :=
  ∃ n place, Walks tree true n (startFrom tree.workingDirectory (anchorOf cs))
    ((wordsOf cs).map String.ofList) place ∧ tree.entry? place = some .directory

theorem Leads.above (hsound : Sound tree) {reversed above : List Char} {name : String}
    (h : tree.Leads reversed.reverse) (habove : above? reversed = some (above, name))
    (hne : above ≠ []) : tree.Leads above.reverse := by
  obtain ⟨n, place, hwalk, hplace⟩ := h
  obtain ⟨words, anchor⟩ := above?_some habove hne
  rw [words, anchor, List.map_append] at hwalk
  refine hwalk.enters hsound ?_ hplace
  cases anchorOf above.reverse with
  | relative => exact hsound.working
  | _ => rfl

theorem ensureAll_eq (hsound : Sound tree) (fuel : Nat) {reversed : List Char}
    (h : tree.Leads reversed.reverse) : (tree.ensureAll fuel reversed).1 = tree := by
  have last : ∀ {reversed : List Char}, tree.Leads reversed.reverse →
      (tree.ensureDirectory (.ofText (String.ofList reversed.reverse))).1 = tree := by
    rintro reversed ⟨n, place, hwalk, hplace⟩
    refine ensureDirectory_eq (n := n) ?_ hplace
    rw [Trail.ofText, namesOf_eq, String.toList_ofList]
    exact hwalk
  have upper : ∀ {reversed above : List Char} {name : String}, tree.Leads reversed.reverse →
      above? reversed = some (above, name) →
      ¬ (above.isEmpty || tree.leadsSomewhere (.ofText (String.ofList above.reverse))) = true →
      tree.Leads above.reverse :=
    fun h habove hnone => h.above hsound habove (by rintro rfl; simp at hnone)
  fun_induction Tree.ensureAll tree fuel reversed with
  | case1 => exact last h
  | case2 _ _ _ hnone _ _ hrec _ habove ih =>
    have kept := ih (upper h habove hnone)
    rwa [hrec] at kept
  | case3 _ _ _ _ _ habove hnone _ _ hrec _ _ ih =>
    have kept := ih (upper h habove hnone)
    rw [hrec] at kept
    dsimp only at kept
    rw [kept]
    exact last h
  | case4 _ _ _ _ habove hnone _ _ hrec _ ih =>
    have kept := ih (upper h habove hnone)
    rwa [hrec] at kept
  | case5 => exact last h

theorem ensureDirectories_eq (hsound : Sound tree) {text : String} (h : tree.Leads text.toList) :
    (tree.ensureDirectories text).1 = tree :=
  ensureAll_eq hsound _ (by rwa [List.reverse_reverse])

end Tree

end ClipRender.Files
