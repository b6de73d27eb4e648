import GenScope.OneShot
import GenScope.Proofs.Session.Turns
import GenScope.Proofs.Text.Fragment

/-!
# Single queries and the console

A query on the command line and the same query typed at the console are answered by different code. If
it finds at most one function, or exactly one class, both print the same, and where the one ends with an
extraction error that is reported, the other prints that error and goes on (`agrees_with_console`). The
query may itself look like a command: behind the lead of a command it is taken as a query.
-/

namespace GenScope

open Session (Answer State outcomeOf)

variable {σ : Type} {t : FileTree} {settings : InspectorSettings} {printer : Printer} {chooser : Chooser σ}
  {st : State σ} {q lead : Text}

/-! ### Lines with a query -/

namespace Command

theorem ofLine_functionInfo (h : lead ∈ functionInfoLeads) (hq : Text.trim q = q) :
    ofLine (lead ++ q) = .functionInfo q := by
  rcases List.mem_pair.1 h with rfl | rfl <;> exact congrArg functionInfo hq

theorem ofLine_functionSource (h : lead ∈ functionSourceLeads) (hq : Text.trim q = q) :
    ofLine (lead ++ q) = .functionSource q := by
  obtain rfl := List.mem_singleton.1 h
  exact congrArg functionSource hq

theorem ofLine_classInfo (h : lead ∈ classInfoLeads) (hq : Text.trim q = q) :
    ofLine (lead ++ q) = .classInfo q := by
  rcases List.mem_pair.1 h with rfl | rfl <;> exact congrArg classInfo hq

theorem trim_lead_append (h : lead ∈ functionInfoLeads ++ functionSourceLeads ++ classInfoLeads)
    (hq : Text.trim q = q) (hne : q ≠ []) : Text.trim (lead ++ q) = lead ++ q := by
  have hlead : ∀ lead ∈ functionInfoLeads ++ functionSourceLeads ++ classInfoLeads,
      lead ≠ [] ∧ lead.head?.all (!Text.isBlank ·) = true := by decide
  obtain ⟨hlead_ne, hhead⟩ := hlead lead h
  obtain ⟨-, hlast⟩ := Text.trim_eq_self_iff.1 hq
  refine Text.trim_eq_self_iff.2 ⟨fun c hc => ?_, fun c hc => hlast c ?_⟩
  · rw [List.head?_append_of_ne_nil _ hlead_ne] at hc
    simpa [hc] using hhead
  · rwa [List.getLast?_append_of_ne_nil _ hne] at hc

end Command

/-! ### What is shown -/

namespace Session

/-- What the console makes of a command that a failed extraction would end: a reported error is printed. -/
def reporting (printer : Printer) : Answer → Answer
  | .error (.extraction e) =>
    if e.isReported then .ok ⟨[], printer.draw (Styled.styled .error e.message), ()⟩
    else .error (.extraction e)
  | answer => answer

variable {kind : ArtifactKind} {find : ScanStats → Logged (Counted (Except ScanFailure (List Path)))}
  {nothingFound : Styled} {display : Path → Logged Answer} {p : Path} {α : Type} {report : α → List Styled}

theorem showChosen_of_none (h : (find st.counted).value.result = .ok []) :
    (showChosen t printer kind chooser st find nothingFound display).value.1 = prints printer [nothingFound] := by
  rw [showChosen, Logged.value_bind_eq]
  rcases hfind : (find st.counted).value with ⟨counted, found⟩
  rw [hfind] at h
  subst h
  rfl

theorem showChosen_of_only (h : (find st.counted).value.result = .ok [p]) :
    (showChosen t printer kind chooser st find nothingFound display).value.1 = (display p).value := by
  rw [showChosen, Logged.value_bind_eq]
  rcases hfind : (find st.counted).value with ⟨counted, found⟩
  rw [hfind] at h
  subst h
  rfl

theorem showExtracted_value (extracted : Except Cpp.ExtractionError α) :
    (showExtracted printer report extracted).value = reporting printer (match extracted with
      | .ok a => prints printer (report a)
      | .error e => .error (.extraction e)) := by
  cases extracted with
  | ok a => rfl
  | error e => cases e <;> rfl

end Session

namespace OneShot

variable {noun : Text} {find : Logged (Counted (Except ScanFailure (List Path)))} {α : Type}
  {extract : Path → Logged (Except Cpp.ExtractionError α)} {report : α → List Styled} {p : Path}

theorem showOnly_of_none (h : find.value.result = .ok []) :
    (showOnly printer noun q find extract report).value = Session.prints printer [Session.notFound noun q] := by
  rw [showOnly, Logged.value_bind_eq, h]
  rfl

theorem showOnly_of_only (h : find.value.result = .ok [p]) :
    (showOnly printer noun q find extract report).value = match (extract p).value with
      | .ok a => Session.prints printer (report a)
      | .error e => .error (.extraction e) := by
  rw [showOnly, Logged.value_bind_eq, h, Logged.value_bind_eq]
  cases (extract p).value <;> rfl

theorem showOnly_err {o : Outcome Unit} (h : (showOnly printer noun q find extract report).value = .ok o) :
    o.err = [] := by
  have hprints {lines : List Styled} (h : Session.prints printer lines = .ok o) : o.err = [] := by
    obtain rfl := Except.ok.inj h
    rfl
  rw [showOnly, Logged.value_bind_eq] at h
  split at h
  · cases h
  · exact hprints h
  · rw [Logged.value_bind_eq] at h
    split at h
    · cases h
    · exact hprints h
  · exact hprints h

/-! ### Functions and classes -/

theorem showFunction_reporting {report : FunctionArtifact → List Styled} {ps : List Path}
    (h : (Locate.functions t settings (SearchQuery.ofText q)).value.result = .ok ps) (hle : ps.length ≤ 1) :
    (Session.showFunction t settings printer chooser st report q).value.1 =
      Session.reporting printer (showFunction t settings printer report q).value := by
  unfold Session.showFunction showFunction
  match ps with
  | [] => rw [Session.showChosen_of_none h, showOnly_of_none h]; rfl
  | [p] =>
    rw [Session.showChosen_of_only h, showOnly_of_only h, Logged.value_bind_eq, Session.showExtracted_value]
  | _ :: _ :: _ => simp at hle

theorem showClass_reporting {p : Path}
    (h : (Locate.classes t settings (SearchQuery.ofText q)).value.result = .ok [p]) :
    (Session.showClass t settings printer chooser st q).value.1 =
      Session.reporting printer (showClass t settings printer q).value := by
  unfold Session.showClass showClass
  rw [Session.showChosen_of_only h, showOnly_of_only h, Session.showExtracted_value]
  rfl

/-- A turn of the console shows what a single answer does. -/
structure ShownAlike (printer : Printer) (single : Answer) (turn : Outcome (Except CommandFailure Bool)) : Prop where
  out_eq : turn.out = match single with
    | .ok o => o.out
    | .error _ => []
  err_ne_nil_iff : turn.err ≠ [] ↔ ∃ e : Cpp.ExtractionError, e.isReported ∧ single = .error (.extraction e)
  err_eq : ∀ e : Cpp.ExtractionError, e.isReported → single = .error (.extraction e) →
    turn.err = printer.draw (Styled.styled .error e.message)
  result_eq_error_iff : ∀ f, turn.result = .error f ↔
    single = .error f ∧ ∀ e, f = .extraction e → e.isReported = false

theorem ShownAlike.of_reporting {single : Answer} {c : Command} (h : ∀ o, single = .ok o → o.err = []) :
    ShownAlike printer single (outcomeOf c (Session.reporting printer single)) := by
  have hdraw := printer.draw_ne_nil
  match single with
  | .ok o =>
    exact ⟨rfl, by simp [outcomeOf, Session.reporting, h o rfl], by simp, by simp [outcomeOf, Session.reporting]⟩
  | .error (.search f) =>
    exact ⟨rfl, by simp [outcomeOf, Session.reporting], by simp, by simp [outcomeOf, Session.reporting]⟩
  | .error (.extraction e) =>
    cases he : e.isReported with
    | true =>
      have hreported : Session.reporting printer (.error (.extraction e)) =
          .ok ⟨[], printer.draw (Styled.styled .error e.message), ()⟩ := if_pos he
      rw [hreported]
      exact ⟨rfl, by simp [outcomeOf, hdraw, he], by rintro _ - ⟨⟩; rfl, by simp [outcomeOf, he]⟩
    | false =>
      have hraised : Session.reporting printer (.error (.extraction e)) = .error (.extraction e) :=
        if_neg (by simp [he])
      rw [hraised]
      exact ⟨rfl, by simp [outcomeOf, he], by rintro _ he' ⟨⟩; simp [he] at he', by simp [outcomeOf, he]⟩

/-- Of a query that finds at most one function, or exactly one class, a single answer and the console show
the same, whatever the console was asked before. The lead of a command about functions may be typed on
either keyboard. -/
theorem agrees_with_console (t : FileTree) (settings : InspectorSettings) (printer : Printer) (chooser : Chooser σ)
    (st : State σ) (hq : Text.trim q = q) (hne : q ≠ []) :
    (∀ ps, (Locate.functions t settings (SearchQuery.ofText q)).value.result = .ok ps → ps.length ≤ 1 →
      ShownAlike printer (showFunction t settings printer Report.functionInfo q).value
        (Session.step t settings printer chooser st ("f " ++ q)).value.1 ∧
      ShownAlike printer (showFunction t settings printer Report.functionSource q).value
        (Session.step t settings printer chooser st ("src " ++ q)).value.1) ∧
    (∀ p, (Locate.classes t settings (SearchQuery.ofText q)).value.result = .ok [p] →
      ShownAlike printer (showClass t settings printer q).value
        (Session.step t settings printer chooser st ("cl " ++ q)).value.1) ∧
    (Session.step t settings printer chooser st ("\u0430 " ++ q)).value =
      (Session.step t settings printer chooser st ("f " ++ q)).value := by
  have hstep {lead : Text} (hlead : lead ∈ Command.functionInfoLeads ++ Command.functionSourceLeads ++
      Command.classInfoLeads) {c : Command} (hc : Command.ofLine (lead ++ q) = c) :
      (Session.step t settings printer chooser st (lead ++ q)).value =
        (outcomeOf c (Session.runCommand t settings printer chooser st c).value.1,
          (Session.runCommand t settings printer chooser st c).value.2) := by
    rw [Session.step_value, Command.trim_lead_append hlead hq hne, hc]
  have hinfo {lead : Text} (hlead : lead ∈ Command.functionInfoLeads) :=
    hstep (by simp [hlead]) (Command.ofLine_functionInfo hlead hq)
  refine ⟨fun ps hps hle => ⟨?_, ?_⟩, fun p hp => ?_, ?_⟩
  · rw [hinfo (by decide), Session.runCommand, showFunction_reporting hps hle]
    exact .of_reporting fun o => showOnly_err
  · rw [hstep (by decide) (Command.ofLine_functionSource (by decide) hq), Session.runCommand,
      showFunction_reporting hps hle]
    exact .of_reporting fun o => showOnly_err
  · rw [hstep (by decide) (Command.ofLine_classInfo (by decide) hq), Session.runCommand,
      showClass_reporting hp]
    exact .of_reporting fun o => showOnly_err
  · rw [hinfo (by decide), hinfo (by decide)]

/-- The query is the lead of a command, the function that it finds is intact and the class is not. -/
theorem agrees_with_console_lead :
    let t : FileTree := ⟨[(["out"], .directory), (["out", "cl"], .directory), (["out", "cl", "C@Src.h"], .file []),
      (["out", "src.cpp"], .file (Utf8.encode "int64_t f$src() \x7b\n\x7d\n"))], by decide +kernel, [], [], []⟩
    let settings : InspectorSettings := ⟨"/out", "cl", "C@", ".cpp", ".h", false⟩
    let printer : Printer := .terminal false
    let q : Text := "src"
    let st : State Script := .new ⟨[], []⟩
    let found := (Locate.functions t settings (SearchQuery.ofText q)).value.result
    let broken : Cpp.ExtractionError := .unrecognizedShape "/out/cl/C@Src.h"
    (InspectorSettings.ofValue .lax t (.object [(some ("root" : Text), .text "/out")]) = .ok (.valid settings) ∧
      Text.trim q = q ∧ q ≠ [] ∧ found = .ok [.ofText "/out/src.cpp"] ∧
      (Locate.classes t settings (SearchQuery.ofText q)).value.result = .ok [.ofText "/out/cl/C@Src.h"]) ∧
    ShownAlike printer (showFunction t settings printer Report.functionSource q).value
      (Session.step t settings printer Script.chooser st ("src " ++ q)).value.1 ∧
    (showClass t settings printer q).value = .error (.extraction broken) ∧
    (Session.step t settings printer Script.chooser st ("cl " ++ q)).value.1.err =
      printer.draw (Styled.styled .error broken.message) := by
  intro t settings printer q st found broken
  have hq : Text.trim q = q := by decide
  have hne : q ≠ [] := by decide
  have hfound : found = .ok [.ofText "/out/src.cpp"] := by decide +kernel
  have hclass : (Locate.classes t settings (SearchQuery.ofText q)).value.result =
      .ok [.ofText "/out/cl/C@Src.h"] := by decide +kernel
  have hbroken : (showClass t settings printer q).value = .error (.extraction broken) := by decide +kernel
  obtain ⟨hfunction, hclasses, -⟩ := agrees_with_console t settings printer Script.chooser st hq hne
  exact ⟨⟨by rfl, hq, hne, hfound, hclass⟩, (hfunction _ hfound (by decide)).2, hbroken,
    (hclasses _ hclass).err_eq broken rfl hbroken⟩

end OneShot

end GenScope
