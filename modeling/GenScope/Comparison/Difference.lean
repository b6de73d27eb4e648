import GenScope.FileTree.Resolve
import GenScope.Settings.Comparison
import GenScope.Text.WordChar

/-!
# Differences

Two versions of a generated file differ if their heads do: the generator writes checksums first,
the one of the code before the one that takes comments into account. A file that cannot be read has
an empty head.
-/

namespace GenScope

/-- The first bytes of a file, or all of them without a limit. -/
def readHead (t : FileTree) (p : Path) (limit : Option Nat) : Bytes :=
  match t.read p with
  | .ok content =>
    match limit with
    | some n => content.take n
    | none => content
  | .error _ => []

/-- The path names a C++ source or header. -/
def isCppFile (p : Path) : Bool := p.name.endsWith ".cpp" || p.name.endsWith ".h"

/-- A numbered file of variables is named at the start of the text. -/
def isVariablesAt (s : Text) : Bool :=
  match Text.after? "vars" s with
  | some rest =>
    rest.head?.any Text.isDecimal && Text.startsWith (rest.dropWhile Text.isDecimal) ".cpp"
  | none => false

/-- A numbered file of variables is named somewhere in the text. -/
def namesVariables : Text → Bool
  | [] => false
  | c :: s => isVariablesAt (c :: s) || namesVariables s

/-- Files under such a name change with every run of the generator. -/
def isNoisyName (name : Text) : Bool := namesVariables name || name.endsWith "_lib_version.h"

/-- A file whose head differs between the two trees. -/
structure FileDifference where
  /-- The file as it is below both roots. -/
  relativePath : Text
  /-- The code is the same and only comments changed. -/
  onlyComments : Bool
  /-- There is nothing in the compared tree. -/
  isMissing : Bool
  /-- The difference is worth looking at. -/
  isImportant : Bool
deriving DecidableEq, Repr

namespace FileDifference

/-- The name under which the difference is written. -/
def flatName (d : FileDifference) : Text := Text.substitute '/' '_' d.relativePath

/-- The line that tells the user. -/
def line (d : FileDifference) : Text :=
  "diff: " ++ d.flatName ++ (if d.onlyComments then (" (comments only)" : Text) else []) ++
    (if d.isMissing then (" (doesnt exist)" : Text) else [])

end FileDifference

/-- A file that is asked about lies outside the master tree. -/
structure OutsideFault where
  path : Text
  root : Text
deriving DecidableEq, Repr

def OutsideFault.message (f : OutsideFault) : Text :=
  Text.quoted f.path ++ " is not in the subpath of " ++ Text.quoted f.root ++
    " OR one path is relative and the other is absolute."

namespace ComparisonSettings

def masterPath (s : ComparisonSettings) : Path := Path.ofText s.masterRoot

def comparedPath (s : ComparisonSettings) : Path := Path.ofText s.comparedRoot

def diffPath (s : ComparisonSettings) : Path := Path.ofText s.diffRoot

/-- The difference between the versions of a file, given as the names below both roots. -/
def differenceAt (s : ComparisonSettings) (t : FileTree) (names : List Text) :
    Option FileDifference :=
  let master := s.masterPath.below names
  let masterHead := readHead t master s.headerBytes
  let comparedHead := readHead t (s.comparedPath.below names) s.headerBytes
  let onlyComments := masterHead.take s.commentFreeBytes = comparedHead.take s.commentFreeBytes
  if masterHead = comparedHead then none
  else some {
    relativePath := Path.toText ⟨.relative, names⟩
    onlyComments
    isMissing := comparedHead.isEmpty
    isImportant := !isNoisyName master.name && !onlyComments }

/-- The difference between a master file and its counterpart. -/
def compareFile (s : ComparisonSettings) (t : FileTree) (master : Path) :
    Except OutsideFault (Option FileDifference) :=
  match master.relativeTo? s.masterPath with
  | some names => .ok (s.differenceAt t names)
  | none => .error ⟨master.toText, s.masterPath.toText⟩

end ComparisonSettings

end GenScope
