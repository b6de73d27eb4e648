import GenScope.FileTree.Resolve
import GenScope.Schema
import GenScope.Text.Blank

/-!
# Directory settings

A directory is given as a path, which may start at the user's directory (`~`) or at that of another
user (`~name`). It is kept without links and dots, and it has to be there.
-/

namespace GenScope

/-- Why a directory cannot be found out. Unlike an issue, this ends the program. -/
inductive DirectoryFault
  | unknownHome
  | linkLoop (path : Text)
  /-- The system does not say what is at the path. -/
  | unanswered (fault : Fault) (path : Text)
deriving DecidableEq, Repr

def DirectoryFault.message : DirectoryFault → Text
  | .unknownHome => "Could not determine home directory."
  | .linkLoop path => "Symlink loop from " ++ Text.quoted path
  | .unanswered fault path => fault.describe path

namespace FileTree

/-- The directory of a user who is known by name; without a name, of the user of the program. -/
def homeOf? (t : FileTree) (user : Text) : Option Location :=
  if user.isEmpty then some t.home else t.homes.lookup user

/-- The path with a user's directory put in place of a tilde and the name that follows it. -/
def expandHome (t : FileTree) (p : Path) : Except DirectoryFault Path :=
  match p.anchor, p.names with
  | .relative, ('~' :: user) :: rest =>
    match t.homeOf? user with
    | some home => .ok ⟨.top, home ++ rest⟩
    | none => .error .unknownHome
  | _, _ => .ok p

end FileTree

/-- Reads a setting that names a directory; `what` says which one in messages. -/
def readDirectory (t : FileTree) (what value : Text) : Except DirectoryFault (Checked Text) :=
  let reject (reason : Text) : Except DirectoryFault (Checked Text) :=
    .ok (.fail (.rejected reason))
  let trimmed := Text.trim value
  if trimmed.isEmpty then reject (what ++ " directory must be specified")
  else if trimmed.contains '\x00' then reject "embedded null byte"
  else do
    let path := t.resolve (← t.expandHome (Path.ofText trimmed))
    match t.ask path with
    | .ok e =>
      if e.isDirectory then .ok (.valid path.toText)
      else reject (what ++ " path is not a directory: " ++ path.toText)
    | .error .tooManyLinks => .error (.linkLoop path.toText)
    | .error fault =>
      if fault.meansAbsent then reject (what ++ " directory does not exist: " ++ path.toText)
      else .error (.unanswered fault path.toText)

/-- Reads the member of an object that names a directory. -/
def Members.directory (members : Members) (r : FieldReaders) (t : FileTree) (key what : Text) :
    Except DirectoryFault (Checked Text) :=
  match members.required key r.text with
  | .valid s => (readDirectory t what s).map (Checked.inside key)
  | .invalid issues => .ok (.invalid issues)

end GenScope
