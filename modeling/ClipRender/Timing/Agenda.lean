import ClipRender.Timing.Alarm

set_option autoImplicit false

/-!
Appointments in a binary heap that is ordered by time alone. The first of them is at the root. Which
of several for the same time comes first is up to the places that they have in the heap, so an
appointment that is called off keeps its place until it comes to the root.
-/

namespace ClipRender

structure Appointment (α : Type) where
  time : Binary64
  purpose : α
  calledOff : Bool
deriving DecidableEq

namespace Appointment

def before {α : Type} (a b : Appointment α) : Bool := Binary64.lt a.time b.time

end Appointment

/-- The children of the place `i` are at `2 * i + 1` and `2 * i + 2`. -/
structure Agenda (α : Type) where
  heap : Array (Appointment α)

namespace Agenda

def empty {α : Type} : Agenda α := ⟨#[]⟩

/-- Moves an appointment toward the root, past all that are later. -/
def rise {α : Type} (heap : Array (Appointment α)) (i : Nat) (h : i < heap.size) :
    Array (Appointment α) :=
  if hi : i = 0 then heap
  else
    have hp : (i - 1) / 2 < heap.size := by omega
    if heap[i].before heap[(i - 1) / 2] then
      rise (heap.swap i ((i - 1) / 2)) ((i - 1) / 2) (by simpa using hp)
    else heap
termination_by i
decreasing_by omega

@[simp] theorem size_rise {α : Type} (heap : Array (Appointment α)) (i : Nat) (h : i < heap.size) :
    (rise heap i h).size = heap.size := by
  fun_induction rise heap i h with
  | case1 => rfl
  | case2 heap i h hi hp hb ih => simpa using ih
  | case3 => rfl

/-- The earlier child of a place with a child; of equal ones the second. -/
def earlierChild {α : Type} (heap : Array (Appointment α)) (i : Nat) (h : 2 * i + 1 < heap.size) :
    { c : Nat // i < c ∧ c < heap.size } :=
  if hr : 2 * i + 2 < heap.size then
    if heap[2 * i + 1].before heap[2 * i + 2] then ⟨2 * i + 1, by omega⟩ else ⟨2 * i + 2, by omega⟩
  else ⟨2 * i + 1, by omega⟩

/-- Moves an appointment to the end of a branch, each time past the earlier child, and from there
up to its place. -/
def sink {α : Type} (heap : Array (Appointment α)) (i : Nat) (h : i < heap.size) :
    Array (Appointment α) :=
  if hl : 2 * i + 1 < heap.size then
    let c := earlierChild heap i hl
    sink (heap.swap i c.1 h c.2.2) c.1 (by simpa using c.2.2)
  else rise heap i h
termination_by heap.size - i
decreasing_by
  have := (earlierChild heap i hl).2
  simp
  omega

@[simp] theorem size_sink {α : Type} (heap : Array (Appointment α)) (i : Nat) (h : i < heap.size) :
    (sink heap i h).size = heap.size := by
  fun_induction sink heap i h with
  | case1 heap i h hl c ih => simpa using ih
  | case2 heap i h hl => simp

def insert {α : Type} (agenda : Agenda α) (time : Binary64) (purpose : α) : Agenda α :=
  ⟨rise (agenda.heap.push ⟨time, purpose, false⟩) agenda.heap.size (by simp)⟩

def callOff {α : Type} [DecidableEq α] (agenda : Agenda α) (purpose : α) : Agenda α :=
  ⟨agenda.heap.map fun a => if a.purpose = purpose then { a with calledOff := true } else a⟩

def first? {α : Type} (agenda : Agenda α) : Option (Appointment α) := agenda.heap[0]?

/-- The agenda without its first appointment; the last one takes its place and sinks. -/
def dropFirst {α : Type} (agenda : Agenda α) : Agenda α :=
  match agenda.heap.back? with
  | none => agenda
  | some last =>
    let rest := agenda.heap.pop
    if h : 0 < rest.size then ⟨sink (rest.set 0 last h) 0 (by simpa using h)⟩ else ⟨rest⟩

theorem size_dropFirst {α : Type} (agenda : Agenda α) :
    agenda.dropFirst.heap.size = agenda.heap.size - 1 := by
  unfold dropFirst
  split
  · next h =>
    rw [Array.back?, Array.getElem?_eq_none_iff] at h
    omega
  · dsimp only
    split <;> simp

theorem size_dropFirst_lt {α : Type} {agenda : Agenda α} {a : Appointment α}
    (h : agenda.first? = some a) : agenda.dropFirst.heap.size < agenda.heap.size := by
  have := (Array.getElem?_eq_some_iff.mp h).1
  rw [size_dropFirst]
  omega

def dropCalledOff {α : Type} (agenda : Agenda α) : Agenda α :=
  match _h : agenda.first? with
  | none => agenda
  | some a => if a.calledOff then dropCalledOff agenda.dropFirst else agenda
termination_by agenda.heap.size
decreasing_by exact size_dropFirst_lt _h

/-- Takes appointments from the front as long as their times pass a test. -/
def takeWhile {α : Type} (test : Binary64 → Bool) (agenda : Agenda α) :
    List (Appointment α) × Agenda α :=
  match _h : agenda.first? with
  | none => ([], agenda)
  | some a =>
    if test a.time then
      let (taken, rest) := takeWhile test agenda.dropFirst
      (a :: taken, rest)
    else ([], agenda)
termination_by agenda.heap.size
decreasing_by exact size_dropFirst_lt _h

/-- What is due at a millisecond, in order, with the rest of the agenda. Before that all that has
been called off at the front goes. -/
def takeDue {α : Type} (ms : Nat) (agenda : Agenda α) : List α × Agenda α :=
  let (taken, rest) := agenda.dropCalledOff.takeWhile fun time => Alarm.rings time ms
  ((taken.filter fun a => !a.calledOff).map (·.purpose), rest)

/-- The first millisecond from `now` on at which something is due. -/
def nextDue? {α : Type} (now : Nat) (agenda : Agenda α) : Option Nat :=
  agenda.dropCalledOff.first?.bind fun a => Alarm.due? now a.time

end Agenda

end ClipRender
