import GenScope.Program

/-!
# The command line

The program sees the files that it is told of: standard input starts with their paths, one on each
line, up to an empty line, and a path that ends in a separator stands for a directory. What follows
are the lines of the console, which are answered one by one. Files that a run changed are written
when it is over. No diff program is started.
-/

namespace GenScope.Shell

def spell (s : Text) : String := String.ofList s

/-- A line without the line feed at its end, unless the input is over. -/
def readLine? (input : IO.FS.Stream) : IO (Option Text) := do
  let line := (← input.getLine).toList
  return if line.isEmpty then none
    else some ((Utf8.unifyNewlines line).takeWhile (· != '\n'))

/-- Adds the files and directories that the input lists. -/
partial def addListed (input : IO.FS.Stream) (t : FileTree) : IO FileTree := do
  match ← readLine? input with
  | none | some [] => return t
  | some line =>
    let p := Path.ofText line
    if line.endsWith "/" then addListed input (t.putEntry p .directory)
    else
      let content ← IO.FS.readBinFile (spell line)
      addListed input (t.putEntry p (.file content.toList))

/-- The directory that a variable of the environment names, or the top. -/
def directoryFrom (name : String) : IO Location := do
  return (Path.ofText ((← IO.getEnv name).getD "/").toList).names

/-- Writes the files that differ from what they were. -/
def writeChanged (before after : FileTree) : IO Unit := do
  for (loc, entry) in after.entries do
    match entry with
    | .file content =>
      unless before.get? loc = some entry do
        IO.FS.writeBinFile (spell (Path.toText ⟨.top, loc⟩)) ⟨content.toArray⟩
    | _ => pure ()

def printRecords (records : List LogRecord) : IO Unit :=
  for r in records do IO.eprintln (spell (r.source ++ ": " ++ r.message))

/-- Prints what a run leaves, and gives its exit status. -/
def finish (before : FileTree) (run : Logged ProgramRun) : IO UInt32 := do
  printRecords run.records
  writeChanged before run.value.tree
  IO.print (spell run.value.out)
  IO.eprint (spell run.value.err)
  match run.value.ending with
  | .crash f => IO.eprintln (spell f.message)
  | .exit _ => pure ()
  return run.value.ending.status.toUInt32

/-- Answers lines until the console is closed. -/
partial def converse (input : IO.FS.Stream) (t : FileTree) (settings : InspectorSettings) :
    IO UInt32 := do
  IO.print (spell Program.prompt)
  (← IO.getStdout).flush
  match ← readLine? input with
  | none => IO.println ""; return 0
  | some line =>
    let turn := Session.execute t settings Program.printer Program.noTerminal (.ofEvents .absent []) line
    printRecords ((LogSetup.configured settings.debug).emitted turn.records)
    let (outcome, _) := turn.value
    IO.print (spell outcome.out)
    IO.eprint (spell outcome.err)
    match outcome.result with
    | .ok true => converse input t settings
    | .ok false => return 0
    | .error f => finish t (pure (Program.failing t [] [] (.command f)))

def run (args : List Text) : IO UInt32 := do
  let input ← IO.getStdin
  let workingDir ← directoryFrom "PWD"
  let home ← directoryFrom "HOME"
  let start ← IO.monoMsNow
  let t ← addListed input ({ FileTree.empty with workingDir, home }.ensureDirectory workingDir)
  let stop ← IO.monoMsNow
  let w : Surroundings := ⟨t, [], .silent false, .ofRatio start 1000, .ofRatio stop 1000⟩
  match Invocation.ofArguments args with
  | .ok (.inspect o) =>
    let loaded := Program.loadSettings o t
    match Program.requestOf o, loaded.value with
    | .conversation, .ok l => do
      printRecords loaded.records
      converse input t l.settings
    | _, _ => finish t (Program.run args w)
  | _ => finish t (Program.run args w)

end GenScope.Shell

def main (args : List String) : IO UInt32 := GenScope.Shell.run (args.map String.toList)
