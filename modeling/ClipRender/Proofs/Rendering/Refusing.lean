import ClipRender.Proofs.Files.Resolving
import ClipRender.Rendering.Accept

set_option autoImplicit false

/-!
Orders that are refused. Only one whose job is in flight is told that the job is rendered already,
and a job that is made is not in flight.
-/

namespace ClipRender.Rendering

/-- It does not say of any job that it is rendered already. -/
def Spares {α : Type} (x : Except Failure α) : Prop :=
  ∀ id, x ≠ .error (.reported (.jobInFlight id))

namespace Spares

variable {α β : Type}

theorem ok (a : α) : Spares (.ok a : Except Failure α) := by
  intro id hfailure
  contradiction

theorem bind {x : Except Failure α} {f : α → Except Failure β} (hx : Spares x)
    (hf : ∀ a, Spares (f a)) : Spares (x >>= f) := by
  cases x with
  | error failure =>
    intro id hfailure
    exact hx id (by rw [Except.error.inj hfailure])
  | ok a => exact hf a

theorem map {x : Except Failure α} (hx : Spares x) (f : α → β) : Spares (x.map f) := by
  cases x with
  | error failure =>
    intro id hfailure
    exact hx id (by rw [Except.error.inj hfailure])
  | ok a => exact ok (f a)

theorem mapError {ε : Type} {f : ε → Failure} (hf : ∀ e id, f e ≠ .reported (.jobInFlight id))
    (x : Except ε α) : Spares (x.mapError f) := by
  cases x with
  | error e => exact fun id hfailure => hf e id (Except.error.inj hfailure)
  | ok a => exact ok a

theorem error {failure : Failure} (h : ∀ id, failure ≠ .reported (.jobInFlight id)) :
    Spares (.error failure : Except Failure α) :=
  fun id hfailure => h id (Except.error.inj hfailure)

theorem follow (tree : Files.Tree) (fuel : Nat) (here : Files.Location)
    (followed : Files.Followed) (ahead : List Files.Pending) :
    Spares (tree.follow fuel here followed ahead) := by
  fun_induction Files.Tree.follow tree fuel here followed ahead with
  | case6 => exact error (by simp)
  | _ => first
    | exact ok _
    | assumption

theorem canonical (tree : Files.Tree) (path : Files.Path) : Spares (tree.canonical path) := by
  refine bind (follow _ _ _ _ _) fun found => ?_
  split
  · exact error (by simp)
  · split
    · exact error (by simp)
    · exact ok _

theorem resolve (tree : Files.Tree) (directory : Files.Path) (reference : Option String) :
    Spares (Source.resolve tree directory reference) := by
  rw [Source.resolve]
  split
  · exact error (by simp)
  · refine bind (canonical _ _) fun place => bind (canonical _ _) fun path => ?_
    split
    · exact error (by simp)
    · split
      · exact ok _
      · exact error (by simp)
      · exact error (by simp)

theorem timestamp (seconds : Binary64) : Spares (Timestamp.format seconds) := by
  refine map ?_ _
  rw [Timestamp.milliseconds]
  split
  · exact error (by simp)
  · split
    · exact ok _
    · exact error (by simp)

theorem ratio (given : Option String) : Spares (Filter.Ratio.read given) := by
  have side : ∀ digits, Spares (Filter.Ratio.side digits) := by
    intro digits
    rw [Filter.Ratio.side]
    split
    · exact error (by simp)
    · exact ok _
  rw [Filter.Ratio.read]
  split
  · exact ok _
  · split
    · exact error (by simp)
    · refine bind (side _) fun w => bind (side _) fun h => ?_
      split
      · exact error (by simp)
      · exact ok _

theorem speed (speed : Binary64) :
    Spares ((Filter.SpeedChange.ofSpeed speed).mapError Failure.reported) := by
  rw [Filter.SpeedChange.ofSpeed]
  split
  · exact error (by simp)
  · split
    · exact ok _
    · dsimp only
      split
      · exact error (by simp)
      · exact ok _

theorem graph (fontFile : Option String) (spec : EditSpec) :
    Spares (Filter.Graph.ofSpec fontFile spec) :=
  bind (map (ratio _) _) fun _ => bind (speed _) fun _ => ok _

theorem range (moment : Moment) (spec : EditSpec) :
    Spares ((TimeRange.ofMoment moment spec).mapError Failure.reported) := by
  rw [TimeRange.ofMoment]
  split
  · exact error (by simp)
  · exact ok _

theorem command (settings : Settings) (job : Job) (output : String) :
    Spares (command settings job output) :=
  bind (range _ _) fun _ => bind (graph _ _) fun _ => bind (timestamp _) fun _ =>
    bind (timestamp _) fun _ => ok _

theorem outputName (now : Binary64) (token : String) : Spares (outputName now token) :=
  bind (mapError (by simp) _) fun _ => ok _

end Spares

namespace Scene

variable {s : Scene} {order : Order}

theorem chooseId_world (world : World) (id? : Option String) :
    ∃ drawn, (chooseId world id?).2 = { world with tokensDrawn := drawn } := by
  cases id? with
  | none => exact ⟨_, rfl⟩
  | some id =>
    rw [chooseId]
    split
    · exact ⟨_, rfl⟩
    · exact ⟨world.tokensDrawn, rfl⟩

theorem makeJob_world (s : Scene) (order : Order) (source : String) :
    ∃ drawn, (s.makeJob order source).1 = { s.world with tokensDrawn := drawn } := by
  obtain ⟨drawn, hchosen⟩ := chooseId_world s.world order.jobId
  rw [makeJob]
  split
  next id world hid =>
  obtain rfl : world = { s.world with tokensDrawn := drawn } := by rw [← hchosen, hid]
  split
  · exact ⟨drawn, rfl⟩
  · split <;> exact ⟨_, rfl⟩

theorem createJob_world (s : Scene) (order : Order) :
    ∃ drawn, (s.createJob order).1 = { s.world with tokensDrawn := drawn } := by
  rw [createJob]
  split
  · exact ⟨s.world.tokensDrawn, rfl⟩
  · exact makeJob_world s order _

theorem makeJob_ok {source : String} {job : Job} {world : World}
    (h : s.makeJob order source = (world, .ok job)) : job.id ∉ s.pool.inFlight := by
  rw [makeJob] at h
  split at h
  split at h
  · simp at h
  · next hfree =>
    split at h
    · simp at h
    · obtain rfl := Except.ok.inj (Prod.mk.inj h).2
      exact fun hmem => hfree (by simpa using hmem)

theorem makeJob_error {source id : String} {world : World}
    (h : s.makeJob order source = (world, .error (.reported (.jobInFlight id)))) :
    id ∈ s.pool.inFlight := by
  rw [makeJob] at h
  split at h
  split at h
  · next hflight =>
    obtain rfl : _ = id := by simpa using (Prod.mk.inj h).2
    simpa using hflight
  · split at h
    · next failure hname =>
      rw [Except.error.inj (Prod.mk.inj h).2] at hname
      exact absurd hname (Spares.outputName _ _ id)
    · simp at h

theorem createJob_ok {job : Job} {world : World} (h : s.createJob order = (world, .ok job)) :
    job.id ∉ s.pool.inFlight := by
  rw [createJob] at h
  split at h
  · simp at h
  · exact makeJob_ok h

theorem createJob_error {id : String} {world : World}
    (h : s.createJob order = (world, .error (.reported (.jobInFlight id)))) :
    id ∈ s.pool.inFlight := by
  rw [createJob] at h
  split at h
  · next failure hpath =>
    rw [Except.error.inj (Prod.mk.inj h).2] at hpath
    exact absurd hpath (Spares.resolve _ _ _ id)
  · exact makeJob_error h

end Scene

end ClipRender.Rendering
