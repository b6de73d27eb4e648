import GenScope.Program

/-!
# The turns of a session

The commands of a session share one locator, which counts what its scans see, but no command reads what
earlier ones have counted: a line gives the same in a running session as in a new one (`step_eq`). A
session is thus the sequence of its lines, each executed in a new session with the answers that are
still unused, up to the first one that closes the console (`run_eq_conversation`). The session itself
only adds its prompt in front of each line that it reads, and an empty line at an interrupt or at the
end of the input.
-/

namespace GenScope

/-- A line that was executed, and what came of it. -/
structure Turn where
  line : Text
  outcome : Outcome (Except CommandFailure Bool)

namespace Turn

def failure? (turn : Turn) : Option CommandFailure :=
  match turn.outcome.result with
  | .error f => some f
  | .ok _ => none

/-- The console does not go on after a turn: its line asks for that, or it has failed. -/
def closes (turn : Turn) : Bool :=
  Command.quitWords.contains (Text.trim turn.line) || turn.failure?.isSome

/-- The turns up to the first one that closes the console. -/
def upToClosing (turns : List Turn) : List Turn := turns.take (turns.findIdx closes + 1)

/-- What a session prints and leaves whose turns these are: its prompt before each turn, and unless a
turn closes it, once more in front of an empty line. -/
def conversation (prompt : Text) (lines : List (Option Text)) (turns : List Turn) : Outcome Session.Ending :=
  let closed := turns.any closes
  { out := turns.flatMap (fun turn => prompt ++ turn.outcome.out) ++ if closed then [] else prompt ++ ['\n']
    err := turns.flatMap (·.outcome.err)
    result :=
      { failure := turns.findSome? failure?
        unread := lines.drop (turns.length + if closed then 0 else 1) } }

variable {turn : Turn} {turns : List Turn}

theorem upToClosing_cons :
    upToClosing (turn :: turns) = if turn.closes then [turn] else turn :: upToClosing turns := by
  unfold upToClosing
  cases h : turn.closes <;> simp [List.findIdx_cons, h]

theorem conversation_of_closes {line : Option Text} {rest : List (Option Text)} {prompt : Text}
    (h : turn.closes = true) : conversation prompt (line :: rest) [turn] =
      ⟨prompt ++ turn.outcome.out, turn.outcome.err, ⟨turn.failure?, rest⟩⟩ := by
  cases hfailure : turn.failure? <;> simp [conversation, h, hfailure]

theorem conversation_cons {line : Option Text} {rest : List (Option Text)} {prompt : Text}
    (h : turn.closes = false) : conversation prompt (line :: rest) (turn :: turns) =
      ⟨prompt ++ turn.outcome.out ++ (conversation prompt rest turns).out,
        turn.outcome.err ++ (conversation prompt rest turns).err, (conversation prompt rest turns).result⟩ := by
  have hfailure : turn.failure? = none := by
    rw [closes, Bool.or_eq_false_iff] at h
    simpa using h.2
  have hdrop (n : Nat) : (line :: rest).drop (turns.length + 1 + n) = rest.drop (turns.length + n) := by
    rw [Nat.add_right_comm, List.drop_succ_cons]
  simp [conversation, h, hfailure, hdrop]

end Turn

namespace Session

/-- The lines that are typed before an interrupt. -/
def typed : List (Option Text) → List Text
  | some line :: rest => line :: typed rest
  | _ => []

variable {σ : Type} (t : FileTree) (settings : InspectorSettings) (printer : Printer) (chooser : Chooser σ)
  {s : σ} {line : Text}

/-- Lines that are executed one after another, each in a new session that starts with the answers which
are still unused. -/
def turns : σ → List Text → List Turn
  | _, [] => []
  | s, line :: rest =>
    let (outcome, s) := (execute t settings printer chooser s line).value
    ⟨line, outcome⟩ :: turns s rest

/-- The answers that are still unused after some lines, each executed in a new session. -/
def answersAfter (s : σ) (lines : List Text) : σ :=
  lines.foldl (fun s line => (execute t settings printer chooser s line).value.2) s

/-! ### One line -/

theorem ofLine_eq_quit_iff : Command.ofLine line = .quit ↔ line ∈ Command.quitWords := by
  unfold Command.ofLine
  constructor
  · intro h
    split at h
    · cases h
    split at h
    · exact List.contains_iff_mem.1 ‹_›
    repeat' split at h
    all_goals cases h
  · intro h
    have hne : line.isEmpty = false := by
      cases line with
      | nil => revert h; decide
      | cons => rfl
    rw [hne, if_neg (by simp), if_pos (List.contains_iff_mem.2 h)]

theorem runCommand_eq (st : State σ) (c : Command) :
    (runCommand t settings printer chooser st c).value.1 =
        (runCommand t settings printer chooser (.new st.answers) c).value.1 ∧
      (runCommand t settings printer chooser st c).value.2.answers =
        (runCommand t settings printer chooser (.new st.answers) c).value.2.answers := by
  cases c with
  | nothing | quit | help | unrecognized => exact ⟨rfl, rfl⟩
  | functionInfo q | functionSource q =>
    have hcounted (report : FunctionArtifact → List Styled) : showFunction t settings printer chooser st report q =
        showFunction t settings printer chooser (.new st.answers) report q := by
      unfold showFunction showChosen
      simp only [Locate.functionsAfter_eq]
      rfl
    simp only [runCommand, hcounted, and_self]
  | classInfo q =>
    have hcounted : showClass t settings printer chooser st q =
        showClass t settings printer chooser (.new st.answers) q := by
      unfold showClass showChosen
      simp only [Locate.classesAfter_eq]
      rfl
    simp only [runCommand, hcounted, and_self]

/-- What a line gives whose command gives this. -/
def outcomeOf (c : Command) : Answer → Outcome (Except CommandFailure Bool)
  | .ok o => ⟨o.out, o.err, .ok (c != .quit)⟩
  | .error f => ⟨[], [], .error f⟩

theorem step_value (st : State σ) (line : Text) : (step t settings printer chooser st line).value =
    (outcomeOf (Command.ofLine (Text.trim line))
        (runCommand t settings printer chooser st (Command.ofLine (Text.trim line))).value.1,
      (runCommand t settings printer chooser st (Command.ofLine (Text.trim line))).value.2) := by
  simp only [step, Logged.value_bind_eq]
  obtain ⟨answer, st'⟩ := (runCommand t settings printer chooser st (Command.ofLine (Text.trim line))).value
  cases answer <;> rfl

theorem execute_value (s : σ) (line : Text) : (execute t settings printer chooser s line).value =
    (outcomeOf (Command.ofLine (Text.trim line))
        (runCommand t settings printer chooser (.new s) (Command.ofLine (Text.trim line))).value.1,
      (runCommand t settings printer chooser (.new s) (Command.ofLine (Text.trim line))).value.2.answers) := by
  rw [execute, Logged.value_bind_eq, step_value]
  rfl

/-- A line gives the same in a running session as in a new one. -/
theorem step_eq (st : State σ) (line : Text) :
    (step t settings printer chooser st line).value.1 = (execute t settings printer chooser st.answers line).value.1 ∧
      (step t settings printer chooser st line).value.2.answers =
        (execute t settings printer chooser st.answers line).value.2 := by
  obtain ⟨hgives, hleaves⟩ := runCommand_eq t settings printer chooser st (Command.ofLine (Text.trim line))
  rw [step_value, execute_value]
  exact ⟨congrArg (outcomeOf _) hgives, hleaves⟩

theorem execute_result_of_ok {b : Bool} (h : (execute t settings printer chooser s line).value.1.result = .ok b) :
    b = !Command.quitWords.contains (Text.trim line) := by
  rw [execute_value] at h
  rcases hanswer : (runCommand t settings printer chooser (.new s) (Command.ofLine (Text.trim line))).value.1 with f | o
  · rw [hanswer] at h
    cases h
  · rw [hanswer] at h
    obtain rfl := Except.ok.inj h
    rw [Bool.eq_iff_iff]
    simp [ofLine_eq_quit_iff]

theorem closes_iff {outcome : Outcome (Except CommandFailure Bool)}
    (h : (execute t settings printer chooser s line).value.1 = outcome) :
    (Turn.mk line outcome).closes = true ↔ outcome.result ≠ .ok true := by
  subst h
  unfold Turn.closes Turn.failure?
  rcases hresult : (execute t settings printer chooser s line).value.1.result with f | b
  · simp
  · obtain rfl := execute_result_of_ok t settings printer chooser hresult
    simp

/-! ### All lines -/

/-- A session is the turns of its lines in new sessions, up to the first one that closes it; whatever its
commands have counted before makes no difference. -/
theorem runFrom_eq_conversation (prompt : Text) (st : State σ) (lines : List (Option Text)) :
    let done := Turn.upToClosing (turns t settings printer chooser st.answers (typed lines))
    (runFrom t settings printer prompt chooser st lines).value.1 = Turn.conversation prompt lines done ∧
      (runFrom t settings printer prompt chooser st lines).value.2.answers =
        answersAfter t settings printer chooser st.answers (done.map Turn.line) := by
  induction lines generalizing st with
  | nil => exact ⟨rfl, rfl⟩
  | cons typedLine rest ih =>
    cases typedLine with
    | none => exact ⟨rfl, rfl⟩
    | some line =>
      obtain ⟨hgives, hleaves⟩ := step_eq t settings printer chooser st line
      have hcloses := closes_iff t settings printer chooser hgives.symm
      rw [typed, turns, Turn.upToClosing_cons, runFrom, Logged.value_bind_eq]
      rw [← hgives, ← hleaves]
      generalize (step t settings printer chooser st line).value = stepped at *
      obtain ⟨outcome, st'⟩ := stepped
      dsimp only at *
      have hleft (lines : List Text) : answersAfter t settings printer chooser st.answers (line :: lines) =
          answersAfter t settings printer chooser st'.answers lines := by rw [hleaves]; rfl
      match hresult : outcome.result with
      | .error f | .ok false =>
        have hclosed : (Turn.mk line outcome).closes = true := hcloses.2 (by simp [hresult])
        rw [if_pos hclosed, Turn.conversation_of_closes hclosed]
        exact ⟨by rw [Turn.failure?, hresult]; rfl, (hleft []).symm⟩
      | .ok true =>
        have hopen : ¬(Turn.mk line outcome).closes = true := fun h => hcloses.1 h hresult
        rw [if_neg hopen, Turn.conversation_cons (by simpa using hopen), List.map_cons, hleft]
        obtain ⟨hprinted, hunused⟩ := ih st'
        exact ⟨by rw [← hprinted]; rfl, hunused⟩

/-- A run of a session prints and leaves what its lines do, each in a new session with the answers still
unused, up to the first one that closes the console. -/
theorem run_eq_conversation (prompt : Text) (s : σ) (lines : List (Option Text)) :
    let done := Turn.upToClosing (turns t settings printer chooser s (typed lines))
    (run t settings printer prompt chooser s lines).value =
      (Turn.conversation prompt lines done, answersAfter t settings printer chooser s (done.map Turn.line)) := by
  obtain ⟨hprinted, hunused⟩ := runFrom_eq_conversation t settings printer chooser prompt (.new s) lines
  exact Prod.ext hprinted hunused

/-- The program's prompt is part of what a session prints, also where no line prints anything. -/
theorem run_shows_prompt :
    let t : FileTree := ⟨[(["generated"], .directory)], by decide +kernel, [], [], []⟩
    let settings : InspectorSettings := ⟨"/generated", "cl", "C@", ".cpp", ".h", false⟩
    let done := Turn.upToClosing (turns t settings Program.printer Script.chooser ⟨[], []⟩ ["q"])
    InspectorSettings.ofValue .lax t (.object [(some ("root" : Text), .text "/generated")]) = .ok (.valid settings) ∧
    done.any Turn.closes ∧ done.flatMap (·.outcome.out) = [] ∧
    (run t settings Program.printer Program.prompt Script.chooser ⟨[], []⟩ [some "q"]).value.1.out = "> " := by
  exact ⟨by rfl, by decide +kernel, by decide +kernel, by decide +kernel⟩

end Session

end GenScope
