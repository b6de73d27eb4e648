import GenScope.Session

/-!
# Single queries

A query on the command line is answered at once. Nothing can be chosen, so a query that several
files match is only reported as such.
-/

namespace GenScope.OneShot

/-- The notice that several files match. It is printed with markup. -/
def multipleFound (printer : Printer) (q : Text) : Styled :=
  Styled.plain (printer.unmark ("Multiple files found for query '" ++ q ++ "'"))

/-- Reports the only file that a query finds. -/
def showOnly {α : Type} (printer : Printer) (noun q : Text)
    (find : Logged (Counted (Except ScanFailure (List Path))))
    (extract : Path → Logged (Except Cpp.ExtractionError α)) (report : α → List Styled) :
    Logged Session.Answer := do
  match (← find).result with
  | .error e => return .error (.search e)
  | .ok [] => return Session.prints printer [Session.notFound noun q]
  | .ok [p] =>
    match ← extract p with
    | .error e => return .error (.extraction e)
    | .ok a => return Session.prints printer (report a)
  | .ok (_ :: _ :: _) => return Session.prints printer [multipleFound printer q]

def showFunction (t : FileTree) (settings : InspectorSettings) (printer : Printer)
    (report : FunctionArtifact → List Styled) (q : Text) : Logged Session.Answer :=
  showOnly printer "function" q (Locate.functions t settings (SearchQuery.ofText q))
    (Session.extractFunction t settings) report

def showClass (t : FileTree) (settings : InspectorSettings) (printer : Printer) (q : Text) :
    Logged Session.Answer :=
  showOnly printer "class" q (Locate.classes t settings (SearchQuery.ofText q))
    (fun p => pure (Cpp.extractClass t p)) Report.classInfo

end GenScope.OneShot
