import GenScope.FileTree.Resolve

/-!
# Walking a file tree

A walk visits a directory and then the directories below it, and lists the files of each one. Both
come in the order of the tree's entries. A directory that may not be listed is passed over, and so is a
link to a directory; any other link is listed as a file.
-/

namespace GenScope.FileTree

/-- The directories at and below a location, as the names that lead there from it. -/
def directoriesBelow (t : FileTree) (loc : Location) : List (List Text) :=
  [] :: t.entries.filterMap fun x =>
    if x.2 = .directory ∧ loc.isPrefixOf x.1 ∧ x.1 ≠ loc then some (x.1.drop loc.length)
    else none

/-- The entry is listed among the files of its directory. -/
def listsAsFile (t : FileTree) (x : Location × Entry) : Bool :=
  match x.2 with
  | .file _ | .locked => true
  | .directory | .closed => false
  | .link _ => !t.isDirectory ⟨.top, x.1⟩

/-- The names of the files that a directory holds. -/
def filesIn (t : FileTree) (loc : Location) : List Text :=
  t.entries.filterMap fun x =>
    if x.1.length = loc.length + 1 ∧ loc.isPrefixOf x.1 ∧ t.listsAsFile x then x.1.getLast?
    else none

/-- A directory visited by a walk, and the names of its files. -/
structure Visit where
  directory : Path
  files : List Text
deriving DecidableEq, Repr

/-- The visits of a walk that starts at a path to a directory; none if it is not one. -/
def walk (t : FileTree) (root : Path) : List Visit :=
  match t.follow root with
  | .error _ => []
  | .ok loc =>
    if t.get? loc = some .directory then
      (t.directoriesBelow loc).map fun names => ⟨root.below names, t.filesIn (loc ++ names)⟩
    else []

def Visit.paths (v : Visit) : List Path := v.files.map v.directory.child

/-- The files that a walk lists, in its order. -/
def filesBelow (t : FileTree) (root : Path) : List Path := (t.walk root).flatMap Visit.paths

end GenScope.FileTree
