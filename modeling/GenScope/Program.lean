import GenScope.CommandLine.Invocation
import GenScope.Comparison.Run
import GenScope.Log.Setup
import GenScope.OneShot
import GenScope.Terminal.Choice

/-!
# The program

The program turns its arguments, its input and a file tree into what it prints and an end: an exit
status, or a failure that nothing was prepared for. Its output is no terminal, so that menus are
cancelled at once.
-/

namespace GenScope

/-- What the program is run with. -/
structure Surroundings where
  tree : FileTree
  /-- The lines of the input. -/
  lines : List Text
  diffProgram : DiffProgram
  /-- The readings of the clock at the start and at the end of a comparison, in seconds. -/
  clock : Binary64 × Binary64

/-- What goes wrong when the program runs. -/
inductive ProgramFailure
  | loading (f : LoadFailure)
  | command (f : CommandFailure)
  | copying (f : CopyFault)
deriving DecidableEq, Repr

namespace ProgramFailure

def message : ProgramFailure → Text
  | .loading f => f.message
  | .command f => f.message
  | .copying f => f.message

/-- The failure is reported to the user in one line; any other one shows as it is. -/
def isReported : ProgramFailure → Bool
  | .loading (.configuration _) => true
  | .loading _ => false
  | .command (.search (.configuration _)) => true
  | .command (.search _) => false
  | .command (.extraction e) => e.isReported
  | .copying _ => false

end ProgramFailure

/-- How the program ends. -/
inductive ProgramEnd
  | exit (status : Nat)
  | crash (failure : ProgramFailure)
deriving DecidableEq, Repr

def ProgramEnd.status : ProgramEnd → Nat
  | .exit status => status
  | .crash _ => 1

/-- What a run of the program leaves. -/
structure ProgramRun where
  out : Text
  err : Text
  ending : ProgramEnd
  tree : FileTree
  /-- What was asked of diff programs. -/
  diffCalls : List ComparisonRun.DiffCall

namespace Program

def source : Text := "cli"

def versionLine : Text := "kphp-inspector v1.0.0"

/-- How settings files and the fields of settings are read. -/
def readers : SettingsReaders := .lax

/-- How lines are printed. The output is no terminal, so that no codes are put in. -/
def printer : Printer := .terminal false

/-- What the console shows before it reads a line. -/
def prompt : Text := "> "

/-- A run that leaves the file tree as it is. -/
def leaving (t : FileTree) (out err : Text) (ending : ProgramEnd) : ProgramRun :=
  ⟨out, err, ending, t, []⟩

/-- Ends with a failure; one that can be reported is reported. -/
def failing (t : FileTree) (out err : Text) (f : ProgramFailure) : ProgramRun :=
  if f.isReported then
    leaving t out (err ++ printer.draw (Styled.styled .error f.message)) (.exit 1)
  else leaving t out err (.crash f)

/-! ### Showing functions and classes -/

/-- Every menu finds no terminal and is cancelled. -/
def noTerminal : Chooser Keyboard := fun k labels => do
  match ← Choice.choose labels k with
  | (.ok choice, k) => return (choice, k)
  | (.error _, k) => return (none, k)

/-- The option has a value that is not empty. -/
def given? (option : Option Text) : Option Text := option.filter (!·.isEmpty)

/-- A single query and how it is answered, or nothing if the user is to be asked. -/
inductive Request
  | functionInfo (query : Text)
  | functionSource (query : Text)
  | classInfo (query : Text)
  | conversation
deriving DecidableEq, Repr

/-- What the options ask for. The source of a function goes before information about it, and a
function before a class. -/
def requestOf (o : InspectOptions) : Request :=
  match given? o.functionInfo, given? o.functionSource, given? o.classInfo with
  | info, some q, _ => .functionSource (info.getD q)
  | some q, none, _ => .functionInfo q
  | none, none, some q => .classInfo q
  | none, none, none => .conversation

/-- Answers a request. -/
def fulfil (t : FileTree) (settings : InspectorSettings) (lines : List Text) (r : Request) :
    Logged (Outcome (Option CommandFailure)) := do
  let single (answer : Session.Answer) : Outcome (Option CommandFailure) :=
    match answer with
    | .ok printed => ⟨printed.out, printed.err, none⟩
    | .error f => ⟨[], [], some f⟩
  match r with
  | .functionInfo q =>
    return single (← OneShot.showFunction t settings printer Report.functionInfo q)
  | .functionSource q =>
    return single (← OneShot.showFunction t settings printer Report.functionSource q)
  | .classInfo q => return single (← OneShot.showClass t settings printer q)
  | .conversation =>
    let (turns, _) ← Session.run t settings printer prompt noTerminal (.ofEvents .absent [])
      (lines.map some)
    return ⟨turns.out, turns.err, turns.result.failure⟩

/-- Records a failed extraction before it is reported. -/
def recordFailure : Option CommandFailure → Logged Unit
  | some (.extraction e) =>
    if e.isReported then Logged.write .warning source ("Extraction failed: " ++ e.message)
    else pure ()
  | _ => pure ()

/-- The settings given on the command line. -/
def overrides (o : InspectOptions) : List (Text × Value) := [
  ("root", o.root.elim .null .text), ("debug", o.debug.elim .null .boolean)]

/-- Where a settings file is searched for. -/
def searchDirectories (t : FileTree) : List Path := [⟨.top, t.workingDir⟩, ⟨.top, t.home⟩]

/-- Loads the settings that the options ask for. -/
def loadSettings (o : InspectOptions) (t : FileTree) :
    Logged (Except LoadFailure LoadedSettings) :=
  (LoadedSettings.load readers t o.configFile (overrides o) (searchDirectories t)).under
    (.configured (o.debug.getD false))

def inspect (o : InspectOptions) (t : FileTree) (lines : List Text) : Logged ProgramRun := do
  match ← loadSettings o t with
  | .error f => return failing t [] [] (.loading f)
  | .ok loaded =>
    let showing : Logged (Outcome (Option CommandFailure)) := do
      let shown ← fulfil t loaded.settings lines (requestOf o)
      recordFailure shown.result
      return shown
    let shown ← showing.under (.configured loaded.settings.debug)
    match shown.result with
    | some f => return failing t shown.out shown.err (.command f)
    | none => return leaving t shown.out shown.err (.exit 0)

/-! ### Comparing trees -/

/-- The lines before a comparison. The names of the trees are printed with markup. -/
def comparisonHeading (s : ComparisonSettings) : List Styled := [
  [],
  Styled.plain "Start comparing kphp outputs:",
  Styled.plain (printer.unmark (s.masterRoot ++ "  -vs-  " ++ s.comparedRoot)),
  []]

def diff (o : DiffOptions) (w : Surroundings) : Logged ProgramRun :=
  let value (option : Option Text) : Value := option.elim .null .text
  let settings := ComparisonSettings.load readers.fields w.tree (value o.master) (value o.compared)
    (value o.diff) (.boolean o.skipComments)
  match settings with
  | .error f => pure (failing w.tree [] [] (.loading f))
  | .ok settings => do
    let run ← (settings.run w.tree w.diffProgram w.clock.1 w.clock.2).under (.configured o.debug)
    return {
      out := printer.drawAll (comparisonHeading settings ++ run.lines settings)
      err := []
      ending := match run.result with
        | .ok _ => .exit 0
        | .error f => .crash (.copying f)
      tree := run.progress.folder.tree
      diffCalls := run.diffCalls }

/-! ### The whole program -/

def usage : List Styled := [
  Styled.plain "Usage: kphp-inspector [--version] [--help] COMMAND",
  Styled.plain
    "  inspect [--root DIR] [--f QUERY | --src QUERY | --cl QUERY] [--config FILE] [--debug]",
  Styled.plain "  diff --master DIR --cmp DIR --diff DIR [--skip-comments] [--debug]"]

/-- Runs the program. -/
def run (args : List Text) (w : Surroundings) : Logged ProgramRun :=
  match Invocation.ofArguments args with
  | .error e =>
    pure (leaving w.tree [] (printer.drawAll (usage ++ [Styled.plain e.message])) (.exit 2))
  | .ok .version =>
    pure (leaving w.tree (printer.draw (Styled.plain versionLine)) [] (.exit 0))
  | .ok .help => pure (leaving w.tree (printer.drawAll usage) [] (.exit 0))
  | .ok (.inspect o) => inspect o w.tree w.lines
  | .ok (.diff o) => diff o w

end Program

end GenScope
