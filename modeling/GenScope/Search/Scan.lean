import GenScope.FileTree.Walk
import GenScope.Settings.Load
import GenScope.Text.Lowercase

/-!
# Scanning for file names

A scan walks a directory and gives the files whose lower-cased names hold a fragment, or start with
it. Statistics are added up over scans until they are reset; a scan that fails does not count.
-/

namespace GenScope

/-- Why a scan fails. -/
inductive ScanFailure
  | configuration (e : ConfigurationError)
  /-- The system does not say what is at a path. -/
  | unanswered (fault : Fault) (path : Text)
deriving DecidableEq, Repr

def ScanFailure.message : ScanFailure → Text
  | .configuration e => e.message
  | .unanswered fault path => fault.describe path

/-- What scans have seen since the last reset. -/
structure ScanStats where
  directories : Nat
  scanned : Nat
  matched : Nat
deriving DecidableEq, Repr

namespace ScanStats

def zero : ScanStats := ⟨0, 0, 0⟩

def add (a b : ScanStats) : ScanStats :=
  ⟨a.directories + b.directories, a.scanned + b.scanned, a.matched + b.matched⟩

/-- The statistics after a reset. -/
def reset (_ : ScanStats) : ScanStats := zero

end ScanStats

/-- A result with the statistics after it. -/
structure Counted (α : Type) where
  stats : ScanStats
  result : α

namespace Scan

/-- The lower-cased name is one that is looked for. -/
def matchesName (fragment : Text) (anchored : Bool) (name : Text) : Bool :=
  if anchored then (Text.lower name).startsWith fragment
  else Text.occursIn fragment (Text.lower name)

/-- The files of a walk whose names match. -/
def matching (visits : List FileTree.Visit) (fragment : Text) (anchored : Bool) : List Path :=
  (visits.flatMap FileTree.Visit.paths).filter fun p =>
    matchesName (Text.lower fragment) anchored p.name

/-- What one walk adds to the statistics. -/
def statsOf (visits : List FileTree.Visit) (found : List Path) : ScanStats :=
  ⟨visits.length, (visits.flatMap FileTree.Visit.paths).length, found.length⟩

def source : Text := "tools.fs_walker"

def boolText (b : Bool) : Text := if b then "True" else "False"

/-- Why nothing can be scanned below a path that leads to no directory. -/
def failureAt (t : FileTree) (root : Path) : ScanFailure :=
  match t.probe root with
  | .error fault => .unanswered fault root.toText
  | .ok none => .configuration (.noSearchRoot root.toText)
  | .ok (some _) => .configuration (.searchRootNotADirectory root.toText)

/-- Scans a directory, on top of the statistics so far. -/
def find (t : FileTree) (stats : ScanStats) (root : Path) (fragment : Text) (anchored : Bool) :
    Logged (Counted (Except ScanFailure (List Path))) :=
  if !t.isDirectory root then pure ⟨stats, .error (failureAt t root)⟩
  else do
    let visits := t.walk root
    let found := matching visits fragment anchored
    Logged.write .debug source ("Scan of " ++ root.toText ++ " for '" ++ fragment ++
      "' (anchored=" ++ boolText anchored ++ "): " ++ Text.ofNat found.length ++ " files")
    return ⟨stats.add (statsOf visits found), .ok found⟩

section

variable {t : FileTree} {stats : ScanStats} {root : Path} {fragment : Text} {anchored : Bool}

theorem find_of_isDirectory (h : t.isDirectory root = true) :
    (find t stats root fragment anchored).value =
      let found := matching (t.walk root) fragment anchored
      ⟨stats.add (statsOf (t.walk root) found), .ok found⟩ := by
  simp only [find, h]
  rfl

/-- A scan that fails leaves the statistics as they are. -/
theorem find_of_not_isDirectory (h : t.isDirectory root = false) :
    (find t stats root fragment anchored).value = ⟨stats, .error (failureAt t root)⟩ := by
  simp only [find, h]
  rfl

end

end Scan

end GenScope
