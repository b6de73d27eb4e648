import GenScope.FileTree.Resolve

/-!
# Changing a file tree

Writing a file replaces what it held and follows links to where the file comes to lie. A copy has
the bytes of what it was made from, unless both paths lead to one file, which is refused.
-/

namespace GenScope

/-- Why a file is not copied. -/
inductive CopyFault
  /-- One of the two paths cannot be opened or asked about. -/
  | unopened (fault : Fault) (path : Path)
  /-- Both paths lead to the same place. -/
  | sameFile (source target : Path)
deriving DecidableEq, Repr

def CopyFault.message : CopyFault → Text
  | .unopened fault path => fault.describe path.toText
  | .sameFile source target =>
    Text.quoted source.toText ++ " and " ++ Text.quoted target.toText ++ " are the same file"

namespace FileTree

/-- Writes a file. -/
def write (t : FileTree) (p : Path) (content : Bytes) : Except Fault FileTree := do
  let loc ← t.landing p
  match t.get? loc with
  | some .directory | some .closed => .error .isADirectory
  | some .locked => .error .denied
  | _ => .ok (t.insert loc (.file content))

/-- Both paths lead to the same place. -/
def isSamePlace (t : FileTree) (p q : Path) : Bool :=
  match t.follow p, t.follow q with
  | .ok a, .ok b => a = b
  | _, _ => false

/-- Writes what one path leads to at another path. -/
def copy (t : FileTree) (source target : Path) : Except CopyFault FileTree :=
  if t.isSamePlace source target then .error (.sameFile source target)
  else match t.read source with
    | .error fault => .error (.unopened fault source)
    | .ok content => (t.write target content).mapError (.unopened · target)

/-- Puts an entry at a path. The directories that lead to it are made as needed. -/
def putEntry (t : FileTree) (p : Path) (e : Entry) : FileTree :=
  match t.resolve ⟨p.anchor, p.names.dropLast⟩, p.names.getLast? with
  | dir, some name =>
    let t := t.ensureDirectory dir.names
    match e with
    | .directory => t.ensureDirectory (dir.names ++ [name])
    | .file content =>
      match t.write (dir.child name) content with
      | .ok t => t
      | .error _ => t
    | .locked | .closed | .link _ => t.insert (dir.names ++ [name]) e
  | _, none => t

/-- Removes a file, a link or a directory with all that it holds. -/
def remove (t : FileTree) (p : Path) : FileTree :=
  match t.resolve ⟨p.anchor, p.names.dropLast⟩, p.names.getLast? with
  | dir, some name => t.erase (dir.names ++ [name])
  | _, none => t

end FileTree

end GenScope
