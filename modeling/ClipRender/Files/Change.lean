import ClipRender.Files.Tree

set_option autoImplicit false

/-!
Changes to a tree made by others.
-/

namespace ClipRender.Files

inductive Change where
  | directory (path : Path)
  | file (path : Path) (written : File)
  | link (path : Path) (target : String)
  | gone (path : Path)

namespace Change

/-- What an operation makes of a tree; one that is refused changes nothing. -/
def attempt (tree : Tree) : Except Fault Tree → Tree
  | .ok changed => changed
  | .error _ => tree

def withParents (tree : Tree) (path : Path) : Tree :=
  (tree.ensureDirectories (Path.text { path with names := path.names.dropLast })).1

def makeLink (tree : Tree) (path : Path) (target : String) : Except Fault Tree := do
  let place ← tree.ownPlace path
  match tree.entry? place with
  | some _ => .error .taken
  | none => .ok (tree.put place (.link target))

def apply (tree : Tree) : Change → Tree
  | .directory path => (tree.ensureDirectories path.text).1
  | .file path written =>
    let tree := withParents tree path
    attempt tree (tree.write path written)
  | .link path target =>
    let tree := withParents tree path
    attempt tree (makeLink tree path target)
  | .gone path => attempt tree (tree.remove path)

end Change

end ClipRender.Files
