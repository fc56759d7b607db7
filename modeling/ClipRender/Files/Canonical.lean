import ClipRender.Failure
import ClipRender.Files.Tree

set_option autoImplicit false

/-!
The place that a path names, with every link on it replaced by its target. What does not exist is
taken as written. A link that leads back to itself stays, and what is still to be walked is joined
to it: first the rest of the target in which it was met, then the rest of the target or path in
which that link was met, and so on. A rest that begins with a slash starts anew.
-/

namespace ClipRender.Files

/-- A step still to be taken: a text between slashes, or the end of a link's target. -/
inductive Pending where
  | piece (text : String)
  | linkEnd (link : Location)

/-- Links met so far, with the place that each leads to once that is known. -/
abbrev Followed := List (Location × Option Location)

/-- The texts between the slashes of a target, less the one before a slash at its start. -/
def Pending.ofTarget (target : String) : List Pending :=
  let all := (pieces target.toList).map fun cs => piece (String.ofList cs)
  if (anchorOf target.toList) = .relative then all else all.tail

namespace Tree

/-- The root anew, if a rest begins with a slash; two slashes make the other root. -/
def restart? : List Pending → Option Anchor
  | .piece "" :: .piece "" :: .piece "" :: .piece _ :: _ => some .root
  | .piece "" :: .piece "" :: .piece _ :: _ => some .doubleRoot
  | .piece "" :: .piece _ :: _ => some .root
  | _ => none

/-- The path with the steps still pending below it, two dots taken as one name up. -/
def join (here : Path) : List Pending → Path
  | [] => here
  | .linkEnd _ :: rest =>
    match restart? rest with
    | some anchor => join ⟨anchor, []⟩ rest
    | none => join here rest
  | .piece text :: rest =>
    if text = "" ∨ text = "." then join here rest
    else if text = ".." then join { here with names := here.names.dropLast } rest
    else join (here.child text) rest

/-- The path of a link that is met on the way to its own target. -/
def joinRest (link : Location) (ahead : List Pending) : Path :=
  match restart? ahead with
  | some anchor => join ⟨anchor, []⟩ ahead
  | none => join (.absolute link) ahead

def hasNull (s : String) : Bool := s.toList.contains '\x00'

/-- The fuel bounds the number of steps; each link is entered once. -/
def follow (tree : Tree) (fuel : Nat) (here : Location) (followed : Followed)
    (ahead : List Pending) : Except Failure Path :=
  match fuel, ahead with
  | 0, _ => .ok (.absolute here)
  | _, [] => .ok (.absolute here)
  | fuel + 1, .linkEnd link :: rest => follow tree fuel here ((link, some here) :: followed) rest
  | fuel + 1, .piece text :: rest =>
    if text = "" ∨ text = "." then follow tree fuel here followed rest
    else if text = ".." then follow tree fuel here.dropLast followed rest
    else
      let next := here ++ [text]
      if next.any hasNull then .error .nullByte
      else
        match tree.entry? next with
        | some (.link target) =>
          match followed.lookup next with
          | some (some place) => follow tree fuel place followed rest
          | some none => .ok (joinRest next rest)
          | none =>
            follow tree fuel (startFrom here (anchorOf target.toList)) ((next, none) :: followed)
              (Pending.ofTarget target ++ .linkEnd next :: rest)
        | _ => follow tree fuel next followed rest

/-- A step for each piece of each link's target, and one for each end. -/
def followFuel (tree : Tree) (path : Path) : Nat :=
  tree.entries.foldl (fun steps (_, entry) =>
    match entry with
    | .link target => steps + (Pending.ofTarget target).length + 1
    | _ => steps) (path.names.length + 1)

/-- The path with no link on it that leads where a path does; a circle of links is reported. -/
def canonical (tree : Tree) (path : Path) : Except Failure Path := do
  let start := startFrom tree.workingDirectory path.anchor
  let found ← follow tree (followFuel tree path) start [] (path.names.map .piece)
  if found.names.any hasNull then .error .nullByte
  else
    match tree.status found with
    | .error .tooManyLinks => .error (.linkLoop found.text)
    | _ => .ok found

end Tree

end ClipRender.Files
