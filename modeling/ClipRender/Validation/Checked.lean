import ClipRender.Validation.Issue

set_option autoImplicit false

/-!
Results of checks. Checks side by side report all that they find, in order; a check that needs the
result of another runs only if that one found nothing.
-/

namespace ClipRender.Validation

inductive Checked (α : Type) where
  | valid (value : α)
  | faulty (first : Issue) (more : List Issue)

namespace Checked

variable {α β : Type}

def fail (fault : Fault) : Checked α := .faulty ⟨[], fault⟩ []

def issues : Checked α → List Issue
  | .valid _ => []
  | .faulty first more => first :: more

def map (f : α → β) : Checked α → Checked β
  | .valid value => .valid (f value)
  | .faulty first more => .faulty first more

/-- Both checks; all issues of the first stand before those of the second. -/
def apply (f : Checked (α → β)) (x : Checked α) : Checked β :=
  match f with
  | .valid f => x.map f
  | .faulty first more => .faulty first (more ++ x.issues)

instance : Applicative Checked where
  pure := .valid
  map := map
  seq f x := apply f (x ())

def andThen (x : Checked α) (check : α → Checked β) : Checked β :=
  match x with
  | .valid value => check value
  | .faulty first more => .faulty first more

def ensure (x : Checked α) (holds : α → Bool) (fault : α → Fault) : Checked α :=
  x.andThen fun value => if holds value then .valid value else fail (fault value)

/-- The same findings, seen from outside a part. -/
def inside (place : Place) : Checked α → Checked α
  | .valid value => .valid value
  | .faulty first more =>
    let moved := fun issue : Issue => { issue with location := place :: issue.location }
    .faulty (moved first) (more.map moved)

/-- Every item checked, from the given index on. -/
def each (check : β → Checked α) : Nat → List β → Checked (List α)
  | _, [] => .valid []
  | n, item :: rest =>
    apply ((inside (.index n) (check item)).map List.cons) (each check (n + 1) rest)

end Checked

end ClipRender.Validation
