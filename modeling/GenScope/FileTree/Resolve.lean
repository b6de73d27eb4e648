import GenScope.FileTree.Basic

/-!
# From paths to locations

Opening a path follows every link on the way: `follow` gives the location it leads to, or the
fault that stops it. Asking what is at a path (`probe`, `found?`) fails only if the path is too long to
be asked about or leads through a directory that may not be entered. Resolving a path (`resolve`) gives
the path without links and dots and does not ask whether anything is there.
-/

namespace GenScope

/-- Why a file operation fails. -/
inductive Fault
  | notFound
  | notADirectory
  | isADirectory
  | denied
  | nameTooLong
  | tooManyLinks
deriving DecidableEq, Repr

def Fault.number : Fault → Nat
  | .notFound => 2
  | .denied => 13
  | .notADirectory => 20
  | .isADirectory => 21
  | .nameTooLong => 36
  | .tooManyLinks => 40

def Fault.reason : Fault → Text
  | .notFound => "No such file or directory"
  | .denied => "Permission denied"
  | .notADirectory => "Not a directory"
  | .isADirectory => "Is a directory"
  | .nameTooLong => "File name too long"
  | .tooManyLinks => "Too many levels of symbolic links"

/-- The fault of an operation on a path, given as it was written. -/
def Fault.describe (f : Fault) (path : Text) : Text :=
  "[Errno " ++ Text.ofNat f.number ++ "] " ++ f.reason ++ ": " ++ Text.quoted path

/-- The fault says that nothing is there. -/
def Fault.meansAbsent : Fault → Bool
  | .notFound | .notADirectory | .tooManyLinks => true
  | .isADirectory | .denied | .nameTooLong => false

namespace FileTree

/-! ### Following links -/

/-- A system takes names of so many bytes. -/
def isShortName (name : Text) : Bool := (Utf8.encode name).length ≤ 255

/-- Goes down from a directory, name by name. A link hands over to `onLink` with the directory
it is in and the names that remain. With `create`, the last name may be missing. -/
def descend (t : FileTree) (create : Bool)
    (onLink : Location → List Text → Except Fault Location) :
    Location → List Text → Except Fault Location
  | here, [] => .ok here
  | here, name :: rest =>
    if name = ['.', '.'] then descend t create onLink here.dropLast rest
    else if !isShortName name then .error .nameTooLong
    else match t.get? (here ++ [name]) with
      | none => if create && rest.isEmpty then .ok (here ++ [name]) else .error .notFound
      | some .directory => descend t create onLink (here ++ [name]) rest
      | some .closed => if rest.isEmpty then .ok (here ++ [name]) else .error .denied
      | some (.file _) | some .locked => if rest.isEmpty then .ok (here ++ [name]) else .error .notADirectory
      | some (.link target) =>
        match Path.anchorOf target with
        | .relative => onLink here (Path.namesOf target ++ rest)
        | _ => onLink [] (Path.namesOf target ++ rest)

/-- Goes down from a directory through at most `links` links. -/
def followWithin (t : FileTree) (create : Bool) :
    (links : Nat) → Location → List Text → Except Fault Location
  | 0 => descend t create fun _ _ => .error .tooManyLinks
  | links + 1 => descend t create (followWithin t create links)

/-- The number of links that one path may lead through. -/
def maxLinks : Nat := 40

/-- Where a path starts in the tree. -/
def startOf (t : FileTree) (p : Path) : Location :=
  match p.anchor with
  | .relative => t.workingDir
  | _ => []

/-- The location that a path leads to. -/
def follow (t : FileTree) (p : Path) : Except Fault Location :=
  followWithin t false maxLinks (t.startOf p) p.names

/-- The location where a file written to a path comes to lie. -/
def landing (t : FileTree) (p : Path) : Except Fault Location :=
  followWithin t true maxLinks (t.startOf p) p.names

/-- What a path leads to. -/
def stat (t : FileTree) (p : Path) : Except Fault Entry := do
  match t.get? (← t.follow p) with
  | some e => .ok e
  | none => .error .notFound

def pathExists (t : FileTree) (p : Path) : Bool := (t.stat p).isOk

def isDirectory (t : FileTree) (p : Path) : Bool :=
  match t.stat p with
  | .ok e => e.isDirectory
  | .error _ => false

def isFile (t : FileTree) (p : Path) : Bool :=
  match t.stat p with
  | .ok e => e.isFile
  | .error _ => false

theorem isDirectory_iff {t : FileTree} {p : Path} :
    t.isDirectory p = true ↔ ∃ e, t.stat p = .ok e ∧ e.isDirectory = true := by
  unfold isDirectory
  cases t.stat p <;> simp

/-- The content of the file that a path leads to. -/
def read (t : FileTree) (p : Path) : Except Fault Bytes := do
  match ← t.stat p with
  | .file content => .ok content
  | .locked => .error .denied
  | .directory => .error .isADirectory
  | .closed => .error .denied
  | .link _ => .error .tooManyLinks

/-! ### Asking about paths -/

/-- What a path leads to, if to anything. -/
def probe (t : FileTree) (p : Path) : Except Fault (Option Entry) :=
  match t.stat p with
  | .ok e => .ok (some e)
  | .error fault => if fault.meansAbsent then .ok none else .error fault

theorem probe_eq_some_iff {t : FileTree} {p : Path} {e : Entry} : t.probe p = .ok (some e) ↔ t.stat p = .ok e := by
  unfold probe
  cases t.stat p with
  | ok e' => simp
  | error fault => cases habsent : fault.meansAbsent <;> simp [habsent]

/-- A system takes texts of paths of so many bytes. -/
def isShortPath (p : Path) : Bool := (Utf8.encode p.toText).length < 4096

/-- What a path leads to, by its text. -/
def ask (t : FileTree) (p : Path) : Except Fault Entry :=
  if isShortPath p then t.stat p else .error .nameTooLong

/-- What is found at a path, if anything. Nothing has a name with a null character. -/
def found? (t : FileTree) (p : Path) : Except Fault (Option Entry) :=
  if p.toText.contains '\x00' then .ok none
  else if isShortPath p then t.probe p else .error .nameTooLong

/-! ### Resolving -/

/-- Resolves the names below a location that is already resolved. `onLink` resolves the target of
a link from the directory that holds it. The second part is false where a link leads back to
itself; what remains is then kept as it is. -/
def resolveNames (t : FileTree)
    (onLink : Location → (dir : Location) → List Text → Location × Bool) :
    Location → List Text → Location × Bool
  | here, [] => (here, true)
  | here, name :: rest =>
    if name = ['.', '.'] then resolveNames t onLink here.dropLast rest
    else match t.get? (here ++ [name]) with
      | some (.link target) =>
        let dir := match Path.anchorOf target with
          | .relative => here
          | _ => []
        match onLink (here ++ [name]) dir (Path.namesOf target) with
        | (there, true) => resolveNames t onLink there rest
        | (there, false) => (there ++ rest, false)
      | _ => resolveNames t onLink (here ++ [name]) rest

/-- Resolves through links nested to a given depth; `pending` holds the links whose targets are
being resolved. -/
def resolveWithin (t : FileTree) :
    (depth : Nat) → (pending : List Location) → Location → List Text → Location × Bool
  | 0, _ => fun here names => (here ++ names, false)
  | depth + 1, pending => resolveNames t fun link dir target =>
      if pending.contains link then (link, false)
      else resolveWithin t depth (link :: pending) dir target

/-- Takes the two dots out of names without asking what they stand for. -/
def collapse : Location → List Text → Location
  | here, [] => here
  | here, name :: rest =>
    if name = ['.', '.'] then collapse here.dropLast rest else collapse (here ++ [name]) rest

/-- The path without links and dots. There are no more links to nest than entries. -/
def resolve (t : FileTree) (p : Path) : Path :=
  ⟨.top, collapse [] (resolveWithin t (t.entries.length + 1) [] (t.startOf p) p.names).1⟩

end FileTree

end GenScope
