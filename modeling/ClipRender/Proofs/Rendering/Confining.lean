import ClipRender.Proofs.Rendering.Stir

set_option autoImplicit false

/-!
What the steps of a call that cancels can reach. They touch no render and no table, and of the
engines only the one that the call stops.
-/

namespace ClipRender.Rendering

/-- Of all engines only that of the process id may be sent signals and end. -/
structure Confined (pid : Nat) (s t : Scene) : Prop where
  pool : t.pool = { s.pool with
    stoppers := t.pool.stoppers
    lookouts := t.pool.lookouts
    processes := t.pool.processes
    listeners := t.pool.listeners
    numbers := t.pool.numbers
    ended := t.pool.ended }
  world : t.world = { s.world with signals := t.world.signals }
  signals : ∃ sent, t.world.signals = s.world.signals ++ sent ∧ ∀ signal ∈ sent, signal.pid = pid
  processes : ∀ other, other ≠ pid → t.pool.process? other = s.pool.process? other

namespace Confined

variable {pid : Nat} {s t u : Scene}

theorem of_pool (hpool : t.pool = { s.pool with
      stoppers := t.pool.stoppers
      lookouts := t.pool.lookouts
      listeners := t.pool.listeners
      numbers := t.pool.numbers
      ended := t.pool.ended })
    (hworld : t.world = s.world) : Confined pid s t where
  pool := by rw [hpool]
  world := by rw [hworld]
  signals := ⟨[], by rw [hworld, List.append_nil], by simp⟩
  processes other _ := by
    rw [hpool]
    rfl

theorem refl (s : Scene) : Confined pid s s := of_pool rfl rfl

theorem trans (h : Confined pid s t) (k : Confined pid t u) : Confined pid s u where
  pool := by rw [k.pool, h.pool]
  world := by rw [k.world, h.world]
  signals := by
    obtain ⟨first, hfirst, hearly⟩ := h.signals
    obtain ⟨second, hsecond, hlate⟩ := k.signals
    refine ⟨first ++ second, by rw [hsecond, hfirst, List.append_assoc], ?_⟩
    intro signal hmem
    rcases List.mem_append.mp hmem with hmem | hmem
    · exact hearly signal hmem
    · exact hlate signal hmem
  processes other hother := (k.processes other hother).trans (h.processes other hother)

theorem onPool (h : Confined pid s t) {f : Pool → Pool} (hf : f t.pool = { t.pool with
      stoppers := (f t.pool).stoppers
      lookouts := (f t.pool).lookouts
      listeners := (f t.pool).listeners
      numbers := (f t.pool).numbers
      ended := (f t.pool).ended }) : Confined pid s (t.onPool f) :=
  h.trans (of_pool hf rfl)

theorem ask (h : Confined pid s t) (posting : Posting) : Confined pid s (t.ask posting) :=
  h.trans (of_pool rfl rfl)

theorem post (h : Confined pid s t) (event : Event) : Confined pid s (t.post event) :=
  h.ask (.next event)

theorem postAfter (h : Confined pid s t) (delay : Nat) (event : Event) :
    Confined pid s (t.postAfter delay event) :=
  h.ask _

theorem tell (h : Confined pid s t) (listener : Listener) : Confined pid s (t.tell listener) := by
  cases listener with
  | lookout number =>
    rw [Scene.tell]
    split
    · exact post (h.onPool rfl) _
    · exact h
  | stopper number => exact h.post _

theorem tellAll (h : Confined pid s t) (listeners : List Listener) :
    Confined pid s (listeners.foldl Scene.tell t) := by
  induction listeners generalizing t with
  | nil => exact h
  | cons listener rest ih => exact ih (h.tell listener)

theorem setProcess (s : Scene) (process : Engine.Process) :
    Confined process.pid s (s.onPool (·.setProcess process)) where
  pool := rfl
  world := rfl
  signals := ⟨[], (List.append_nil _).symm, by simp⟩
  processes other hother := by
    change (s.pool.setProcess process).process? other = _
    rw [Pool.process?_setProcess]
    cases hprocess : s.pool.process? other with
    | none => rfl
    | some found =>
      have hpid : found.pid ≠ process.pid := by rwa [Pool.process?_pid hprocess]
      simp [hpid]

theorem exit (h : Confined pid s t) (code : Int) : Confined pid s (t.exit pid code) := by
  rw [Scene.exit]
  split
  · exact h
  · next process hprocess =>
    have hpid : (process.ended code).pid = pid := by
      rw [← Pool.process?_pid hprocess, Engine.Process.ended]
      split <;> rfl
    have ends : Confined pid t (t.onPool (·.setProcess (process.ended code))) := by
      rw [← hpid]
      exact setProcess t _
    split
    · exact h
    · refine tellAll ?_ _
      exact (h.trans ends).trans (of_pool rfl rfl)

theorem logSignal (s : Scene) (signal : Engine.Signal) (heard : Bool) :
    Confined pid s (s.logSignal pid signal heard) where
  pool := rfl
  world := rfl
  signals := ⟨_, rfl, by simp⟩
  processes _ _ := rfl

theorem send (h : Confined pid s t) (signal : Engine.Signal) :
    Confined pid s (t.send pid signal) := by
  rw [Scene.send]
  split
  · exact h
  · next process _ =>
    have logged : Confined pid s (t.logSignal pid signal process.hears) :=
      h.trans (logSignal t signal process.hears)
    dsimp only
    split
    · exact logged
    · exact logged.exit _
    · exact logged.postAfter _ _

theorem callBack (h : Confined pid s t) (l : Lookout) (cause : Recall) :
    Confined pid s (t.callBack l cause) := by
  rw [Scene.callBack]
  dsimp only
  split
  · exact post (h.onPool rfl) _
  · exact post (onPool (h.ask _) rfl) _
  · exact h.onPool rfl

theorem dismiss (h : Confined pid s t) (l : Lookout) : Confined pid s (t.dismiss l) := by
  rw [Scene.dismiss]
  exact ask (h.onPool rfl) _

theorem consult (h : Confined pid s t) (number : Nat) :
    Confined pid s (t.consult number).1 := by
  rw [Scene.consult]
  split
  · exact h
  · split
    · exact h
    · split
      · exact h.dismiss _
      · exact h.dismiss _
      · exact h.callBack _ _
      · exact h

theorem abortWait (h : Confined pid s t) (number : Nat) : Confined pid s (t.abortWait number) := by
  rw [Scene.abortWait]
  split
  · exact h
  · split
    · exact h
    · exact h.callBack _ _

theorem callOwner (h : Confined pid s t) (l : Lookout) : Confined pid s (t.callOwner l) := by
  rw [Scene.callOwner]
  split
  · exact h
  · exact post (h.onPool rfl) _

theorem announce (h : Confined pid s t) (l : Lookout) : Confined pid s (t.announce l) := by
  rw [Scene.announce]
  split
  · exact h.callOwner l
  · exact h

theorem alarm (h : Confined pid s t) (l : Lookout) : Confined pid s (t.alarm l) := by
  rw [Scene.alarm]
  split
  · exact h
  · exact h.callOwner l

theorem comeBack (h : Confined pid s t) (l : Lookout) : Confined pid s (t.comeBack l) :=
  post (h.onPool rfl) _

theorem look {l : Lookout} (h : Confined l.pid s t) : Confined l.pid s (t.look l) := by
  rw [Scene.look]
  split
  · exact h
  · split
    · exact h.comeBack l
    · split
      · exact h
      · next process hprocess =>
        have hpid : process.atReportEnd.pid = l.pid := by
          rw [← Pool.process?_pid hprocess, Engine.Process.atReportEnd]
          split <;> rfl
        split
        · exact h.onPool rfl
        · rw [Scene.findEnded]
          split
          · exact h.comeBack l
          · split
            · refine comeBack ?_ l
              rw [← hpid] at h ⊢
              exact h.trans (setProcess t _)
            · exact postAfter (h.onPool rfl) _ _

/-- What is done with a lookout touches the engine it was sent to and no other. -/
theorem forLookout {number : Nat} {f : Lookout → Scene}
    (hown : ∀ l ∈ s.pool.lookouts, l.number = number → l.pid = pid)
    (hf : ∀ l, Confined l.pid s (f l)) : Confined pid s (s.forLookout number f) := by
  rw [Scene.forLookout]
  split
  · next l hl =>
    obtain ⟨hmem, hnumber⟩ := Pool.lookout?_mem hl
    rw [← hown l hmem hnumber]
    exact hf l
  · exact .refl s

section Calls

variable {x : Stopper} {task : Nat} (hclient : x.client = .call task)

include hclient

theorem finishStop (h : Confined x.pid s t) : Confined x.pid s (t.finishStop x) := by
  rw [Scene.finishStop]
  simp only [hclient]
  exact onPool (onPool (h.send .kill) rfl) rfl

theorem beginStop (h : Confined x.pid s t) : Confined x.pid s (t.beginStop x) := by
  rw [Scene.beginStop]
  split
  · refine onPool (?_ : Confined x.pid s (Scene.sendLookout _ _ _ _ _).2) rfl
    exact post (onPool (ask (onPool (h.send .terminate) rfl) _) rfl) _
  · exact h.finishStop hclient

theorem killStopped (h : Confined x.pid s t) : Confined x.pid s (t.killStopped x) := by
  rw [Scene.killStopped]
  split
  · exact onPool (h.send .kill) rfl
  · exact (h.send .kill).finishStop hclient

omit hclient in
theorem giveUp (hclient : x.client = .call task) (h : Confined pid s t) :
    Confined pid s (t.giveUp x) := by
  rw [Scene.giveUp]
  simp only [hclient]
  exact onPool (h.onPool rfl) rfl

theorem stopperTurn (h : Confined x.pid s t) : Confined x.pid s (t.stopperTurn x) := by
  rw [Scene.stopperTurn]
  cases x.stage with
  | called => exact h.beginStop hclient
  | killed =>
    dsimp only
    split
    · exact h
    · exact h.finishStop hclient
  | grace number =>
    have consulted := h.consult number
    dsimp only
    rcases hconsult : t.consult number with ⟨u, _ | _ | _ | _⟩
    all_goals rw [hconsult] at consulted
    · exact consulted
    · exact consulted.finishStop hclient
    · exact consulted.killStopped hclient
    · exact consulted.giveUp hclient

theorem abortStop (h : Confined pid s t) : Confined pid s (t.abortStop x) := by
  rw [Scene.abortStop]
  split
  · exact h
  · exact h.abortWait _
  · exact h.giveUp hclient

end Calls

theorem stop (h : Confined pid s t) (task : Nat) : Confined pid s (t.stop pid (.call task)) := by
  let x : Stopper := ⟨t.pool.numbers + 1, pid, .called, .call task⟩
  have staffed : Confined x.pid s (t.freshNumber.2.onPool fun p =>
      { p with stoppers := p.stoppers ++ [x] }) := h.trans (of_pool rfl rfl)
  exact staffed.beginStop rfl

end Confined

end ClipRender.Rendering
