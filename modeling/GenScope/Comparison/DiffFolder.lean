import GenScope.Comparison.Difference
import GenScope.FileTree.Write
import GenScope.Log

/-!
# The diff folder

For a reported difference the folder gets a file for the output of a diff program and a copy of
each version. A fault in starting the program is only recorded, but a copy that fails ends the
comparison. The program runs beside the comparison and writes its output whenever it gets to it: what
it has left there at a moment is not known here (`DiffProgram`), and `proceed` puts it into the folder
before every step that reads or copies.
-/

namespace GenScope

/-- A diff program at work: what it compares, and the name of the file it writes. -/
structure DiffJob where
  master : Path
  compared : Path
  output : Text
deriving DecidableEq, Repr

/-- The command line of the program. Lines that hold nothing but a comment are ignored. -/
def DiffJob.command (j : DiffJob) : List Text :=
  ["diff", "-u", "-I", "// .*", "-I", "//.*", j.master.toText, j.compared.toText]

/-- The diff program, as far as a comparison can tell. -/
structure DiffProgram where
  /-- The program is there to be started. -/
  canStart : Bool
  /-- What a job has left in its output at a moment, if it has written since the last one. -/
  writes : (moment : Nat) → DiffJob → Option Bytes

/-- A program that writes nothing. -/
def DiffProgram.silent (canStart : Bool) : DiffProgram := ⟨canStart, fun _ _ => none⟩

/-- The output of a job, which is open, gets what the job has written. -/
def DiffProgram.leave (program : DiffProgram) (root : Path) (moment : Nat) (t : FileTree) (job : DiffJob) :
    FileTree :=
  match program.writes moment job with
  | none => t
  | some content =>
    match t.write (root.child job.output) content with
    | .ok t => t
    | .error _ => t

/-- The file tree, the jobs that were started, and how often these were left time to write. -/
structure DiffFolder where
  tree : FileTree
  jobs : List DiffJob
  moment : Nat

namespace DiffFolder

def source : Text := "diff.comparator"

/-- Why a diff program is not started, in the words of the record. -/
def cannotRun (name reason : Text) : Text := "Cannot run diff for " ++ name ++ ": " ++ reason

/-- Opens the output file and starts the program, if there is one. -/
def startJob (f : DiffFolder) (root : Path) (program : DiffProgram) (job : DiffJob) :
    Logged DiffFolder :=
  let output := root.child job.output
  match f.tree.write output [] with
  | .error fault => do
    Logged.write .error source (cannotRun job.output (fault.describe output.toText))
    return f
  | .ok tree =>
    if program.canStart then pure { f with tree, jobs := f.jobs ++ [job] }
    else do
      Logged.write .error source (cannotRun job.output (Fault.notFound.describe "diff"))
      return { f with tree }

/-- The jobs write while the comparison goes on. -/
def proceed (f : DiffFolder) (root : Path) (program : DiffProgram) : DiffFolder :=
  { f with tree := f.jobs.foldl (program.leave root f.moment) f.tree, moment := f.moment + 1 }

/-- Copies a file, if that does not fail. -/
def addCopy (f : DiffFolder) (root : Path) (program : DiffProgram) (source : Path) (name : Text) :
    DiffFolder × Option CopyFault :=
  let f := f.proceed root program
  match f.tree.copy source (root.child name) with
  | .ok tree => ({ f with tree }, none)
  | .error fault => (f, some fault)

/-- Copies both versions; the compared one only if it is there. -/
def addCopies (f : DiffFolder) (root : Path) (program : DiffProgram) (job : DiffJob) :
    DiffFolder × Option CopyFault :=
  match f.addCopy root program job.master ("master_" ++ job.output) with
  | (f, some fault) => (f, some fault)
  | (f, none) =>
    match f.tree.probe job.compared with
    | .error fault => (f, some (.unopened fault job.compared))
    | .ok none => (f, none)
    | .ok (some _) => f.addCopy root program job.compared ("cmp_" ++ job.output)

/-- Puts a job and its copies into the folder. -/
def add (f : DiffFolder) (root : Path) (program : DiffProgram) (job : DiffJob) :
    Logged (DiffFolder × Option CopyFault) := do
  return (← f.startJob root program job).addCopies root program job

end DiffFolder

end GenScope
