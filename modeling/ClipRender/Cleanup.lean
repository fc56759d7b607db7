import ClipRender.Settings.Basic
import ClipRender.World

set_option autoImplicit false

/-!
Removal of files that nobody has written to for long. Only regular files directly inside the two
media directories are removed; what cannot be listed or removed is passed over.
-/

namespace ClipRender.Cleanup

open Files (File Tree)

/-- The time of the last change in seconds: whole seconds and then the rest in nanoseconds. -/
def modifiedTime (file : File) : Binary64 :=
  Binary64.ofInt (file.modified / 1000)
    + Binary64.ofQuotient 1 1000000000 * Binary64.ofInt (file.modified % 1000 * 1000000)

def isStale (settings : Settings) (now : Binary64) (file : File) : Bool :=
  (now - modifiedTime file).exceeds settings.fileMaxAge

def joined (directory name : String) : String :=
  if directory.toList.getLast? = some '/' then directory ++ name else directory ++ "/" ++ name

def isRemovable (world : World) (directory name : String) : Bool :=
  (world.files.ownPlace (.ofText (joined directory name))).isOk
    && !world.refusals.status (joined directory name)
    && !world.refusals.removal (joined directory name)

def staleNames (world : World) (settings : Settings) (now : Binary64) (directory : String)
    (place : Files.Location) : List String :=
  (world.files.namesIn place).filter fun name =>
    match world.files.entry? (place ++ [name]) with
    | some (.file file) => isStale settings now file && isRemovable world directory name
    | _ => false

def isListable (world : World) (directory : String) : Bool :=
  !world.refusals.listing directory

def sweepDirectory (world : World) (settings : Settings) (now : Binary64) (directory : String) :
    World × List String :=
  match world.files.place (.ofText directory) with
  | .error _ => (world, [])
  | .ok place =>
    if world.files.entry? place ≠ some .directory || !isListable world directory then (world, [])
    else
      let names := staleNames world settings now directory place
      -- The listing is complete before the first file goes.
      let files := names.foldl (fun files name => files.erase (place ++ [name])) world.files
      ({ world with files := files },
        (names.map (joined directory)).mergeSort fun a b => a ≤ b)

def sweep (world : World) (settings : Settings) (now : Binary64) : World × List String :=
  let (world, fromInput) := sweepDirectory world settings now settings.inputDirectory
  let (world, fromOutput) := sweepDirectory world settings now settings.outputDirectory
  (world, fromInput ++ fromOutput)

end ClipRender.Cleanup
