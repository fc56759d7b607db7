import ClipRender.Files.Fault
import ClipRender.Files.Path
import ClipRender.Text.Utf8

set_option autoImplicit false

/-!
A tree of directories, files and symbolic links, and the walk along a path through it.
-/

namespace ClipRender.Files

abbrev Location := List String

def Path.absolute (place : Location) : Path := ⟨.root, place⟩

structure File where
  content : Utf8.Bytes
  /-- Milliseconds since the epoch. -/
  modified : Int
  executable : Bool
deriving DecidableEq

inductive Entry where
  | directory
  | file (file : File)
  | link (target : String)
deriving DecidableEq

structure Tree where
  entries : List (Location × Entry)
  /-- Where a walk without an anchor starts. -/
  workingDirectory : Location

namespace Tree

def empty (workingDirectory : Location) : Tree :=
  ⟨(List.range workingDirectory.length).map fun i => (workingDirectory.take (i + 1), .directory),
    workingDirectory⟩

/-- The entry at a place, links not followed. -/
def entry? (tree : Tree) (place : Location) : Option Entry :=
  if place.isEmpty then some .directory else tree.entries.lookup place

def put (tree : Tree) (place : Location) (entry : Entry) : Tree :=
  { tree with entries := (place, entry) :: tree.entries.filter (·.1 ≠ place) }

def erase (tree : Tree) (place : Location) : Tree :=
  { tree with entries := tree.entries.filter (·.1 ≠ place) }

def namesIn (tree : Tree) (place : Location) : List String :=
  tree.entries.filterMap fun (p, _) => if p.dropLast = place then p.getLast? else none

/-- How many bytes a name may have. -/
def nameLimit : Nat := 255

def isTooLong (name : String) : Bool := (Utf8.encode name).length > nameLimit

def linkLimit : Nat := 40

/-- How many bytes the text of a trail may have. -/
def trailLimit : Nat := 4095

def startFrom (here : Location) : Anchor → Location
  | .relative => here
  | _ => []

/-- The place that steps lead to from a directory. A link at the last step is followed only if
`followLast`; the last name may have no entry. `follow` goes on after a link. -/
def descend (tree : Tree) (follow : Location → List String → Except Fault Location)
    (followLast : Bool) (here : Location) : List String → Except Fault Location
  | [] => .ok here
  | name :: rest =>
    if name = "." then descend tree follow followLast here rest
    else if name = ".." then descend tree follow followLast here.dropLast rest
    else if isTooLong name then .error .nameTooLong
    else
      let next := here ++ [name]
      match tree.entry? next with
      | none => if rest.isEmpty then .ok next else .error .missing
      | some .directory => descend tree follow followLast next rest
      | some (.file _) => if rest.isEmpty then .ok next else .error .notDirectory
      | some (.link target) =>
        if rest.isEmpty && !followLast then .ok next
        else
          let trail := Trail.ofText target
          follow (startFrom here trail.anchor) (trail.steps ++ rest)

def walk (tree : Tree) (followLast : Bool) : Nat → Location → List String → Except Fault Location
  | 0 => fun _ _ => .error .tooManyLinks
  | links + 1 => descend tree (walk tree followLast links) followLast

def walkTrail (tree : Tree) (followLast : Bool) (trail : Trail) : Except Fault Location :=
  if trail.size = 0 then .error .missing
  else if trailLimit < trail.size then .error .nameTooLong
  else
    walk tree followLast (linkLimit + 1) (startFrom tree.workingDirectory trail.anchor) trail.steps

/-- The place that a trail leads to once links are followed, whether or not an entry is there. -/
def place (tree : Tree) (trail : Trail) : Except Fault Location := walkTrail tree true trail

/-- The same, but a link at the end counts as itself. -/
def ownPlace (tree : Tree) (trail : Trail) : Except Fault Location := walkTrail tree false trail

def status (tree : Tree) (trail : Trail) : Except Fault Entry := do
  let place ← tree.place trail
  match tree.entry? place with
  | some entry => .ok entry
  | none => .error .missing

def isDirectory (tree : Tree) (trail : Trail) : Bool :=
  match tree.status trail with
  | .ok .directory => true
  | _ => false

def listing? (tree : Tree) (trail : Trail) : Option (List String) :=
  match tree.place trail with
  | .ok place => if tree.entry? place = some .directory then some (tree.namesIn place) else none
  | .error _ => none

def leadsSomewhere (tree : Tree) (trail : Trail) : Bool := (tree.status trail).isOk

/-- The file that a trail leads to; none where the way ends or turns in a circle. Other faults are
reported. -/
def file? (tree : Tree) (trail : Trail) : Except Fault (Option File) :=
  match tree.status trail with
  | .ok (.file file) => .ok (some file)
  | .ok _ => .ok none
  | .error .missing => .ok none
  | .error .notDirectory => .ok none
  | .error .tooManyLinks => .ok none
  | .error fault => .error fault

/-- A new directory. A slash after its name means nothing here. -/
def makeDirectory (tree : Tree) (trail : Trail) : Except Fault Tree := do
  let place ← tree.ownPlace { trail with slashed := false }
  match tree.entry? place with
  | some _ => .error .taken
  | none => .ok (tree.put place .directory)

/-- A new directory, unless there is one; with the fault if there is none after that. -/
def ensureDirectory (tree : Tree) (trail : Trail) : Tree × Option Fault :=
  match tree.makeDirectory trail with
  | .ok tree => (tree, none)
  | .error fault => (tree, if tree.isDirectory trail then none else some fault)

/-- A directory with all those above it, from its text in reverse. Whatever stands in the way above
shows when the next one down is made. A dot below a new directory is there with it. -/
def ensureAll (tree : Tree) (fuel : Nat) (reversed : List Char) : Tree × Option Fault :=
  let trail := Trail.ofText (String.ofList reversed.reverse)
  match fuel, above? reversed with
  | fuel + 1, some (above, name) =>
    if above.isEmpty || tree.leadsSomewhere (.ofText (String.ofList above.reverse)) then
      tree.ensureDirectory trail
    else
      let (tree, fault?) := ensureAll tree fuel above
      if fault?.isNone || fault? = some .taken then
        if name = "." then (tree, none) else tree.ensureDirectory trail
      else (tree, fault?)
  | _, _ => tree.ensureDirectory trail

/-- A directory with all those above it. Those that could be made stay, whatever happens below. -/
def ensureDirectories (tree : Tree) (text : String) : Tree × Option Fault :=
  ensureAll tree text.length text.toList.reverse

def write (tree : Tree) (trail : Trail) (file : File) : Except Fault Tree := do
  let place ← tree.place trail
  match tree.entry? place with
  | some .directory => .error .isDirectory
  | _ => .ok (tree.put place (.file file))

def rename (tree : Tree) (source target : Trail) : Except Fault Tree := do
  let fromPlace ← tree.ownPlace source
  let toPlace ← tree.ownPlace target
  match tree.entry? fromPlace, tree.entry? toPlace with
  | none, _ => .error .missing
  | some _, some .directory => .error .isDirectory
  | some entry, _ => .ok ((tree.erase fromPlace).put toPlace entry)

def remove (tree : Tree) (trail : Trail) : Except Fault Tree := do
  let place ← tree.ownPlace trail
  match tree.entry? place with
  | none => .error .missing
  | some .directory => .error .isDirectory
  | some _ => .ok (tree.erase place)

end Tree

end ClipRender.Files
