import GenScope.Comparison.DiffFolder
import GenScope.Console.Styled
import GenScope.FileTree.Walk

/-!
# Comparing two trees

Every C++ file of the master tree is compared with its counterpart. The files of a directory are
listed when the walk comes to it, so that files written before are seen if the diff folder lies in
the master tree. Everything a run prints and counts is determined by the differences it found.
-/

namespace GenScope

/-- How far a run has come. -/
structure ComparisonProgress where
  folder : DiffFolder
  /-- The number of C++ files so far. -/
  total : Nat
  /-- The differences so far, in the order of the walk. -/
  differences : List FileDifference

/-- What a finished run counted. -/
structure ComparisonSummary where
  total : Nat
  inessential : Nat
  important : Nat
  /-- The time that the run took. -/
  milliseconds : Int
deriving DecidableEq, Repr

/-- The difference is told to the user and written to the diff folder. -/
def ComparisonSettings.reports (s : ComparisonSettings) (d : FileDifference) : Bool :=
  d.isImportant || (d.onlyComments && !s.skipComments)

namespace ComparisonProgress

/-- Before the first file. -/
def start (t : FileTree) : ComparisonProgress := ⟨⟨t, [], 0⟩, 0, []⟩

def summary (p : ComparisonProgress) (milliseconds : Int) : ComparisonSummary :=
  ⟨p.total, p.differences.countP (!·.isImportant), p.differences.countP (·.isImportant),
    milliseconds⟩

def reported (p : ComparisonProgress) (s : ComparisonSettings) : List FileDifference :=
  p.differences.filter s.reports

/-- What is printed during the run. -/
def lines (p : ComparisonProgress) (s : ComparisonSettings) : List Styled :=
  (p.reported s).map fun d => Styled.plain d.line

/-- The diff programs write while the comparison goes on. -/
def proceed (p : ComparisonProgress) (s : ComparisonSettings) (program : DiffProgram) : ComparisonProgress :=
  { p with folder := p.folder.proceed s.diffPath program }

/-- Notes a difference, and writes it if it is to be reported. -/
def note (p : ComparisonProgress) (s : ComparisonSettings) (program : DiffProgram)
    (names : List Text) (d : FileDifference) : Logged (ComparisonProgress × Option CopyFault) := do
  let p := { p with differences := p.differences ++ [d] }
  if s.reports d then
    let job := ⟨s.masterPath.below names, s.comparedPath.below names, d.flatName⟩
    let (folder, fault) ← p.folder.add s.diffPath program job
    return ({ p with folder }, fault)
  else return (p, none)

/-- Compares one file of the master tree. -/
def visitFile (p : ComparisonProgress) (s : ComparisonSettings) (program : DiffProgram)
    (names : List Text) : Logged (ComparisonProgress × Option CopyFault) :=
  let p := p.proceed s program
  if isCppFile (s.masterPath.below names) then
    let p := { p with total := p.total + 1 }
    match s.differenceAt p.folder.tree names with
    | some d => p.note s program names d
    | none => pure (p, none)
  else pure (p, none)

/-- Compares files one after another, until a copy fails. -/
def visitFiles (s : ComparisonSettings) (program : DiffProgram) :
    ComparisonProgress → List (List Text) → Logged (ComparisonProgress × Option CopyFault)
  | p, [] => pure (p, none)
  | p, names :: rest => do
    match ← p.visitFile s program names with
    | (p, some fault) => return (p, some fault)
    | (p, none) => visitFiles s program p rest

/-- Lists the files of directories and compares them, until a copy fails. -/
def visitDirectories (s : ComparisonSettings) (program : DiffProgram) (root : Location) :
    ComparisonProgress → List (List Text) → Logged (ComparisonProgress × Option CopyFault)
  | p, [] => pure (p, none)
  | p, dir :: rest => do
    let files := (p.folder.tree.filesIn (root ++ dir)).map fun name => dir ++ [name]
    match ← visitFiles s program p files with
    | (p, some fault) => return (p, some fault)
    | (p, none) => visitDirectories s program root p rest

end ComparisonProgress

/-- A run: what it came to, and its summary, or the fault that ended it. -/
structure ComparisonRun where
  progress : ComparisonProgress
  result : Except CopyFault ComparisonSummary

/-- The whole milliseconds between two readings of a clock that counts seconds. -/
def elapsedMilliseconds (start stop : Binary64) : Int :=
  ((stop.sub start).mul (.ofRatio 1000 1)).truncate

namespace ComparisonSettings

/-- Visits the master tree. -/
def visitAll (s : ComparisonSettings) (t : FileTree) (program : DiffProgram) :
    Logged (ComparisonProgress × Option CopyFault) :=
  match t.follow s.masterPath with
  | .error _ => pure (.start t, none)
  | .ok root =>
    ComparisonProgress.visitDirectories s program root (.start t) (t.directoriesBelow root)

/-- Compares the trees. At the end the diff programs are waited for; if a copy fails, they write on
by themselves. -/
def run (s : ComparisonSettings) (t : FileTree) (program : DiffProgram) (start stop : Binary64) :
    Logged ComparisonRun := do
  match ← s.visitAll t program with
  | (p, some fault) => return ⟨p.proceed s program, .error fault⟩
  | (p, none) =>
    let summary := p.summary (elapsedMilliseconds start stop)
    Logged.write .debug DiffFolder.source ("Compared " ++ Text.ofNat summary.total ++
      " files in " ++ Text.ofInt summary.milliseconds ++ " msec")
    return ⟨p.proceed s program, .ok summary⟩

end ComparisonSettings

/-- What is printed after a run. -/
def ComparisonSummary.lines (s : ComparisonSummary) : List Styled := [
  [],
  Styled.plain ("finished " ++ Text.ofNat s.total ++ " cpp/h files in " ++
    Text.ofInt s.milliseconds ++ " msec"),
  Styled.plain (Text.ofNat s.inessential ++ " known differences (vars.cpp, etc)"),
  Styled.plain (Text.ofNat s.important ++ " important differences")]

namespace ComparisonRun

/-- The lines printed by a run and after it. -/
def lines (r : ComparisonRun) (s : ComparisonSettings) : List Styled :=
  r.progress.lines s ++
    match r.result with
    | .ok summary => summary.lines
    | .error _ => []

/-- What was asked of diff programs, in order: jobs, and after a finished run, waiting for each. -/
inductive DiffCall
  | start (job : DiffJob)
  | wait
deriving DecidableEq, Repr

def diffCalls (r : ComparisonRun) : List DiffCall :=
  let jobs := r.progress.folder.jobs
  jobs.map .start ++
    match r.result with
    | .ok _ => jobs.map fun _ => .wait
    | .error _ => []

end ComparisonRun

end GenScope
