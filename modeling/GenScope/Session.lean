import GenScope.Console.Printer
import GenScope.Console.Report
import GenScope.Search.Label
import GenScope.Search.Locate

/-!
# The interactive console

The console reads commands one per line: information about a function or a class, the source of a
function, help, and quitting. The commands of a session share one locator, which counts what its scans
see, and the one who answers the menus.
-/

namespace GenScope

/-- What a line asks for. -/
inductive Command
  | nothing
  | quit
  | help
  | functionInfo (query : Text)
  | functionSource (query : Text)
  | classInfo (query : Text)
  | unrecognized (line : Text)
deriving DecidableEq, Repr

namespace Command

def quitWords : List Text := ["exit", "q", "quit"]

def helpWords : List Text := ["?", "h", "help", "about", "f"]

/-- What a command about a function starts with; the second one is the first one on a Russian
keyboard. -/
def functionInfoLeads : List Text := ["f ", "\u0430 "]

def functionSourceLeads : List Text := ["src "]

def classInfoLeads : List Text := ["class ", "cl "]

/-- What follows one of some leads, trimmed. -/
def queryAfter? (leads : List Text) (line : Text) : Option Text :=
  (leads.findSome? (Text.after? · line)).map Text.trim

/-- The command in a trimmed line. -/
def ofLine (line : Text) : Command :=
  if line.isEmpty then .nothing
  else if quitWords.contains line then .quit
  else if helpWords.contains line then .help
  else match queryAfter? functionInfoLeads line with
    | some q => .functionInfo q
    | none =>
      match queryAfter? functionSourceLeads line with
      | some q => .functionSource q
      | none =>
        match queryAfter? classInfoLeads line with
        | some q => .classInfo q
        | none => .unrecognized line

end Command

/-- What ends a command. Only an extraction error that is reported lets the console go on. -/
inductive CommandFailure
  | search (f : ScanFailure)
  | extraction (e : Cpp.ExtractionError)
deriving DecidableEq, Repr

def CommandFailure.message : CommandFailure → Text
  | .search f => f.message
  | .extraction e => e.message

/-- What an execution prints, and how it ends. -/
structure Outcome (α : Type) where
  out : Text
  err : Text
  result : α
deriving DecidableEq, Repr

namespace Session

def source : Text := "ui.interactive"

/-- A command with its description. -/
def helpLine (command description : Text) : Styled :=
  Styled.styled .label (Text.padRight 12 command ++ "- " ++ description)

def help : List Styled := [
  helpLine "f \x7bquery\x7d" "print info of function",
  helpLine "src \x7bquery\x7d" "print cpp source code of function",
  helpLine "cl \x7bquery\x7d" "print info about class instance",
  helpLine "q[uit]" "close interactive console",
  Styled.plain ("Examples of \x7bquery\x7d: reorderTags, messages_send, ClassName method, " ++
    "\\Full\\FQN::method() . If many functions found, menu is displayed.")]

/-- The notice that nothing was found. -/
def notFound (noun q : Text) : Styled :=
  Styled.styled .error ("No " ++ noun ++ " found for query '" ++ q ++ "'")

/-- The notice that no class was found. -/
def classNotFound (q : Text) : Styled :=
  Styled.styled .error
    ("No class found for query '" ++ q ++ "' (maybe, it's not an instance class?)")

/-- What a session carries from one command to the next: what its locator has counted, and the state of
the one who answers menus. -/
structure State (σ : Type) where
  counted : ScanStats
  answers : σ
deriving DecidableEq, Repr

/-- The state of a session in which nothing was searched for yet. -/
def State.new {σ : Type} (answers : σ) : State σ := ⟨.zero, answers⟩

/-- What a command gives: what it prints, or what ends it. -/
abbrev Answer := Except CommandFailure (Outcome Unit)

def prints (printer : Printer) (lines : List Styled) : Answer :=
  .ok ⟨printer.drawAll lines, [], ()⟩

/-- Prints what was extracted, or reports why nothing was. -/
def showExtracted {α : Type} (printer : Printer) (report : α → List Styled)
    (extracted : Except Cpp.ExtractionError α) : Logged Answer :=
  match extracted with
  | .ok a => pure (prints printer (report a))
  | .error e =>
    if e.isReported then do
      Logged.write .warning source ("Extraction failed: " ++ e.message)
      return .ok ⟨[], printer.draw (Styled.styled .error e.message), ()⟩
    else pure (.error (.extraction e))

/-- Finds what a query asks for, lets the user choose, and shows what was chosen. -/
def showChosen {σ : Type} (t : FileTree) (printer : Printer) (kind : ArtifactKind)
    (chooser : Chooser σ) (st : State σ)
    (find : ScanStats → Logged (Counted (Except ScanFailure (List Path))))
    (nothingFound : Styled) (display : Path → Logged Answer) : Logged (Answer × State σ) := do
  let ⟨counted, found⟩ ← find st.counted
  match found with
  | .error e => return (.error (.search e), ⟨counted, st.answers⟩)
  | .ok candidates =>
    if candidates.isEmpty then return (prints printer [nothingFound], ⟨counted, st.answers⟩)
    else
      let (chosen, answers) ← Label.resolve t kind chooser st.answers candidates
      match chosen with
      | some p => return (← display p, ⟨counted, answers⟩)
      | none => return (prints printer [], ⟨counted, answers⟩)

/-- The function that a file holds; extracting it is recorded. -/
def extractFunction (t : FileTree) (settings : InspectorSettings) (p : Path) :
    Logged (Except Cpp.ExtractionError FunctionArtifact) :=
  match Cpp.extractFunction t p settings.headerExtension with
  | .ok f => do
    Logged.write .debug "tools.cpp_parser"
      ("Extracted function " ++ f.name ++ " from " ++ p.toText)
    return .ok f
  | .error e => pure (.error e)

def showFunction {σ : Type} (t : FileTree) (settings : InspectorSettings) (printer : Printer)
    (chooser : Chooser σ) (st : State σ) (report : FunctionArtifact → List Styled) (q : Text) :
    Logged (Answer × State σ) :=
  showChosen t printer .function chooser st
    (fun before => Locate.functionsAfter t before settings (SearchQuery.ofText q))
    (notFound "function" q) fun p => do
      showExtracted printer report (← extractFunction t settings p)

def showClass {σ : Type} (t : FileTree) (settings : InspectorSettings) (printer : Printer)
    (chooser : Chooser σ) (st : State σ) (q : Text) : Logged (Answer × State σ) :=
  showChosen t printer .classType chooser st
    (fun before => Locate.classesAfter t before settings (SearchQuery.ofText q))
    (classNotFound q) fun p => showExtracted printer Report.classInfo (Cpp.extractClass t p)

/-- Runs a command other than quitting. -/
def runCommand {σ : Type} (t : FileTree) (settings : InspectorSettings) (printer : Printer)
    (chooser : Chooser σ) (st : State σ) : Command → Logged (Answer × State σ)
  | .nothing | .quit => pure (prints printer [], st)
  | .help => pure (prints printer help, st)
  | .functionInfo q => showFunction t settings printer chooser st Report.functionInfo q
  | .functionSource q => showFunction t settings printer chooser st Report.functionSource q
  | .classInfo q => showClass t settings printer chooser st q
  | .unrecognized line =>
    pure (prints printer [Styled.plain ("Unrecognized command: " ++ line)], st)

/-- Executes a line in a session: what it prints, and whether the console stays open. -/
def step {σ : Type} (t : FileTree) (settings : InspectorSettings) (printer : Printer)
    (chooser : Chooser σ) (st : State σ) (line : Text) :
    Logged (Outcome (Except CommandFailure Bool) × State σ) := do
  let line := Text.trim line
  Logged.write .debug source ("Command: " ++ Text.quoted line)
  let command := Command.ofLine line
  let (answer, st) ← runCommand t settings printer chooser st command
  match answer with
  | .ok o => return (⟨o.out, o.err, .ok (command != .quit)⟩, st)
  | .error f => return (⟨[], [], .error f⟩, st)

/-- Executes a line in a new session. -/
def execute {σ : Type} (t : FileTree) (settings : InspectorSettings) (printer : Printer)
    (chooser : Chooser σ) (s : σ) (line : Text) :
    Logged (Outcome (Except CommandFailure Bool) × σ) := do
  let (turn, st) ← step t settings printer chooser (.new s) line
  return (turn, st.answers)

/-- How a session ended: with what failed, and the lines that were not read. -/
structure Ending where
  failure : Option CommandFailure
  unread : List (Option Text)
deriving DecidableEq, Repr

/-- Reads lines until the console is closed. A missing line is an interrupt, and like the end of
the input it ends the session with an empty line. -/
def runFrom {σ : Type} (t : FileTree) (settings : InspectorSettings) (printer : Printer)
    (prompt : Text) (chooser : Chooser σ) :
    State σ → List (Option Text) → Logged (Outcome Ending × State σ)
  | st, [] => pure (⟨prompt ++ ['\n'], [], ⟨none, []⟩⟩, st)
  | st, none :: rest => pure (⟨prompt ++ ['\n'], [], ⟨none, rest⟩⟩, st)
  | st, some line :: rest => do
    let (turn, st) ← step t settings printer chooser st line
    let out := prompt ++ turn.out
    match turn.result with
    | .error f => return (⟨out, turn.err, ⟨some f, rest⟩⟩, st)
    | .ok false => return (⟨out, turn.err, ⟨none, rest⟩⟩, st)
    | .ok true =>
      let (o, st) ← runFrom t settings printer prompt chooser st rest
      return (⟨out ++ o.out, turn.err ++ o.err, o.result⟩, st)

/-- Runs a new session. -/
def run {σ : Type} (t : FileTree) (settings : InspectorSettings) (printer : Printer) (prompt : Text)
    (chooser : Chooser σ) (s : σ) (lines : List (Option Text)) : Logged (Outcome Ending × σ) := do
  let (o, st) ← runFrom t settings printer prompt chooser (.new s) lines
  return (o, st.answers)

end Session

end GenScope
