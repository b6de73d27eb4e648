import GenScope.Cpp.Source
import GenScope.Proofs.Text.Fragment

/-!
# Declarations without a name

Two tests read a line of a body. The first one asks for the shape of a declaration and looks for the
mark of a name behind a space (`LooksLocal`), the second one for an identifier behind the mark
(`HoldsName`). A line that passes the first test alone breaks the extraction off with an error that
is not reported. There is no other such error, so that `extractClass` reports every error and
`extractFunction` reports every error unless it reaches such a line (`errors_reported_iff`).
-/

namespace GenScope.Cpp

open Text (isBlank isIdentChar)

variable {indent line : Text}

/-- At the indent there is a type, and behind the type a space and the mark of a name. -/
structure LooksLocal (indent line : Text) : Prop where
  type : ∃ c s, line = indent ++ c :: s ∧ isBlank c = false ∧
    ¬ ("v$" : Text) <+: c :: s ∧ ¬ ("return" : Text) <+: c :: s
  synthetic : ∀ fragment ∈ syntheticFragments, ¬ fragment <:+: line
  mark : ∃ before rest, line = before ++ (" v$" ++ rest) ∧ ∀ c ∈ before, endsDeclaration c = false

/-- Behind white space and the mark of a name there is a character of an identifier. -/
def HoldsName (line : Text) : Prop :=
  ∃ before b c rest, line = before ++ b :: 'v' :: '$' :: c :: rest ∧ isBlank b = true ∧ isIdentChar c = true

def IsNamelessLocal (indent line : Text) : Prop := LooksLocal indent line ∧ ¬ HoldsName line

/-! ### The two tests -/

theorem isLocalDeclaration_iff {before : Text} : isLocalDeclaration line before indent = true ↔
    (∃ c s, line = indent ++ c :: s ∧ isBlank c = false ∧
      ¬ ("v$" : Text) <+: c :: s ∧ ¬ ("return" : Text) <+: c :: s) ∧
    (∀ fragment ∈ syntheticFragments, ¬ fragment <:+: line) ∧ ∀ c ∈ before, endsDeclaration c = false := by
  unfold isLocalDeclaration
  split
  · rename_i c s hs
    obtain rfl := Text.after?_eq_some_iff.1 hs
    simp only [Bool.and_eq_true, Bool.not_eq_true', ← Bool.not_eq_true, Text.startsWith_iff, List.any_eq_true,
      Text.occursIn_iff, not_exists, not_and]
    constructor
    · rintro ⟨⟨⟨⟨hb, hv⟩, hr⟩, hsyn⟩, hend⟩
      exact ⟨⟨c, s, rfl, hb, hv, hr⟩, hsyn, hend⟩
    · rintro ⟨⟨d, s', heq, hb, hv, hr⟩, hsyn, hend⟩
      rw [← List.append_cancel_left heq] at hv hr
      rw [← (List.cons.inj (List.append_cancel_left heq)).1] at hb
      exact ⟨⟨⟨⟨hb, hv⟩, hr⟩, hsyn⟩, hend⟩
  · rename_i hnone
    refine iff_of_false (by simp) ?_
    rintro ⟨⟨c, s, heq, -⟩, -⟩
    exact hnone c s (Text.after?_eq_some_iff.2 heq)

/-- The test looks at the first mark, which has the least in front of it. -/
theorem looksLocal_iff : LooksLocal indent line ↔
    ∃ n, Text.position? " v$" line = some n ∧ isLocalDeclaration line (line.take n) indent = true := by
  constructor
  · rintro ⟨htype, hsyn, before, rest, hline, hend⟩
    cases hn : Text.position? " v$" line with
    | none => exact absurd ⟨before, rest, by rw [hline, List.append_assoc]⟩ (Text.position?_eq_none_iff.1 hn)
    | some n =>
      refine ⟨n, rfl, isLocalDeclaration_iff.2 ⟨htype, hsyn, fun c hc => hend c ?_⟩⟩
      have hle := (Text.of_position?_eq_some hn).2 before rest hline
      rw [hline, List.take_append_of_le_length hle] at hc
      exact List.mem_of_mem_take hc
  · rintro ⟨n, hn, hdecl⟩
    obtain ⟨htype, hsyn, hend⟩ := isLocalDeclaration_iff.1 hdecl
    obtain ⟨⟨rest, hline⟩, -⟩ := Text.of_position?_eq_some hn
    exact ⟨htype, hsyn, line.take n, rest, hline, hend⟩

theorem holdsName_cons {b : Char} {s : Text} : HoldsName (b :: s) ↔
    (isBlank b = true ∧ ∃ c rest, s = 'v' :: '$' :: c :: rest ∧ isIdentChar c = true) ∨ HoldsName s := by
  constructor
  · rintro ⟨before, b', c, rest, heq, hb, hc⟩
    cases before with
    | nil =>
      obtain ⟨rfl, rfl⟩ := List.cons.inj heq
      exact .inl ⟨hb, c, rest, rfl, hc⟩
    | cons d before => exact .inr ⟨before, b', c, rest, (List.cons.inj heq).2, hb, hc⟩
  · rintro (⟨hb, c, rest, rfl, hc⟩ | ⟨before, b', c, rest, rfl, hb, hc⟩)
    · exact ⟨[], b, c, rest, rfl, hb, hc⟩
    · exact ⟨b :: before, b', c, rest, rfl, hb, hc⟩

theorem markedName?_isSome_iff : (markedName? line).isSome = true ↔ HoldsName line := by
  induction line with
  | nil => simp [markedName?, HoldsName]
  | cons b s ih =>
    rw [markedName?, holdsName_cons, ← ih, Option.isSome_map, Option.isSome_or, Bool.or_eq_true]
    refine or_congr_left ?_
    cases hb : isBlank b with
    | false => simp
    | true =>
      cases hv : Text.startsWith s "v$" with
      | false =>
        have hno : ∀ c rest, s ≠ 'v' :: '$' :: c :: rest := by
          rintro c rest rfl
          simp [Text.startsWith] at hv
        simp [hno]
      | true =>
        obtain ⟨rest, rfl⟩ := Text.startsWith_iff.1 hv
        cases rest with
        | nil => simp
        | cons c rest => cases hc : isIdentChar c <;> simp [hc]

/-! ### The lines of a body -/

theorem LocalLine.ofLine_eq_nameless_iff :
    LocalLine.ofLine indent line = .nameless ↔ IsNamelessLocal indent line := by
  have hname : ¬ HoldsName line ↔ markedName? line = none := by
    rw [← markedName?_isSome_iff, Bool.not_eq_true, Option.isSome_eq_false_iff, Option.isNone_iff_eq_none]
  rw [IsNamelessLocal, looksLocal_iff, hname, LocalLine.ofLine]
  cases hn : Text.position? " v$" line with
  | none => simp
  | some n =>
    cases hdecl : isLocalDeclaration line (line.take n) indent with
    | false => simp [hdecl]
    | true => cases hm : markedName? line <;> simp [hdecl]

theorem collectLocals?_eq_none_iff {ls : List LocalLine} : collectLocals? ls = none ↔ .nameless ∈ ls := by
  induction ls with
  | nil => simp [collectLocals?]
  | cons l ls ih => cases l <;> simp [collectLocals?, ih]

theorem localVars?_eq_none_iff (indent s : Text) : localVars? indent s = none ↔
    ∃ line ∈ Text.lines (stripComments s), IsNamelessLocal indent line := by
  rw [localVars?, collectLocals?_eq_none_iff, List.mem_map]
  simp only [LocalLine.ofLine_eq_nameless_iff]

/-! ### What is reported -/

/-- Whatever error it ends with is reported. -/
def Reports {α : Type} (x : Except ExtractionError α) : Prop := ∀ e, x = .error e → e.isReported = true

namespace Reports

variable {α β : Type} {x : Except ExtractionError α}

theorem ok (a : α) : Reports (.ok a) := fun _ h => nomatch h

theorem error_iff {e : ExtractionError} : Reports (.error e : Except ExtractionError α) ↔ e.isReported = true :=
  ⟨fun h => h e rfl, fun h _ heq => Except.error.inj heq ▸ h⟩

theorem map_iff {f : α → β} : Reports (x.map f) ↔ Reports x := by
  cases x with
  | ok a => exact iff_of_true (ok _) (ok a)
  | error e => exact error_iff.trans error_iff.symm

theorem bind_iff {f : α → Except ExtractionError β} :
    Reports (x >>= f) ↔ Reports x ∧ ∀ a, x = .ok a → Reports (f a) := by
  cases x with
  | ok a =>
    constructor
    · intro h
      exact ⟨ok a, fun b hb => Except.ok.inj hb ▸ h⟩
    · rintro ⟨-, h⟩
      exact h a rfl
  | error e =>
    refine error_iff.trans (error_iff.symm.trans (iff_self_and.2 fun _ a ha => ?_))
    cases ha

end Reports

theorem readSource_reports (t : FileTree) (p : Path) : Reports (readSource t p) := by
  unfold readSource
  split
  · exact .ok _
  · exact Reports.error_iff.2 rfl

namespace FunctionSource

variable {f : FunctionSource}

theorem declaration_reports (f : FunctionSource) : Reports f.declaration := by
  unfold declaration
  split
  · exact .ok _
  · exact Reports.error_iff.2 rfl

theorem name_reports (f : FunctionSource) : Reports f.name := Reports.map_iff.2 f.declaration_reports

theorem returnType_reports (f : FunctionSource) : Reports f.returnType := by
  unfold returnType
  dsimp only
  split
  · exact .ok _
  · exact Reports.error_iff.2 rfl

theorem localVars_reports_iff : Reports f.localVars ↔
    ∀ line ∈ Text.lines (stripComments f.text), ¬ IsNamelessLocal f.indent line := by
  have hnone := localVars?_eq_none_iff f.indent f.text
  unfold localVars
  split
  · rename_i vs hvs
    refine iff_of_true (.ok vs) fun line hline hlocal => ?_
    rw [hnone.2 ⟨line, hline, hlocal⟩] at hvs
    cases hvs
  · rename_i hvs
    obtain ⟨line, hline, hlocal⟩ := hnone.1 hvs
    refine iff_of_false (fun h => ?_) fun h => h line hline hlocal
    cases Reports.error_iff.1 h

theorem extract_reports_iff : Reports f.extract ↔
    ((∃ name, f.name = .ok name) → (∃ type, f.returnType = .ok type) →
      ∀ line ∈ Text.lines (stripComments f.text), ¬ IsNamelessLocal f.indent line) := by
  have hparams : Reports f.parameters := Reports.map_iff.2 f.declaration_reports
  have hfound : ∀ name, f.name = .ok name → ∃ ps, f.parameters = .ok ps := by
    intro name hname
    unfold FunctionSource.name at hname
    unfold parameters
    cases hd : f.declaration with
    | ok d => exact ⟨_, rfl⟩
    | error e => simp [hd, Except.map] at hname
  rw [← localVars_reports_iff, extract]
  simp only [Reports.bind_iff, f.name_reports, f.returnType_reports, hparams, true_and]
  constructor
  · rintro h ⟨name, hn⟩ ⟨type, ht⟩
    obtain ⟨ps, hps⟩ := hfound name hn
    exact (h name hn type ht ps hps).1
  · intro h name hn type ht ps _
    exact ⟨h ⟨name, hn⟩ ⟨type, ht⟩, fun vs _ => .ok _⟩

theorem ofFile_reports (t : FileTree) (p : Path) (ext : Text) : Reports (ofFile t p ext) :=
  Reports.map_iff.2 (readSource_reports t p)

end FunctionSource

namespace ClassSource

theorem name_reports (c : ClassSource) : Reports c.name := by
  unfold name
  split
  · exact .ok _
  · exact Reports.error_iff.2 rfl

theorem extract_reports (c : ClassSource) : Reports c.extract :=
  Reports.bind_iff.2 ⟨c.name_reports, fun _ _ => .ok _⟩

theorem ofFile_reports (t : FileTree) (p : Path) : Reports (ofFile t p) := Reports.map_iff.2 (readSource_reports t p)

end ClassSource

/-- Every error is reported, except that a line that looks like the declaration of a local variable
and holds no name breaks the extraction of a function off if name and return type are found. -/
theorem errors_reported_iff (t : FileTree) (p : Path) (ext : Text) :
    Reports (extractClass t p) ∧
    (Reports (extractFunction t p ext) ↔
      ∀ f, FunctionSource.ofFile t p ext = .ok f → (∃ name, f.name = .ok name) →
        (∃ type, f.returnType = .ok type) →
          ∀ line ∈ Text.lines (stripComments f.text), ¬ IsNamelessLocal f.indent line) := by
  refine ⟨?_, ?_⟩
  · exact Reports.bind_iff.2 ⟨ClassSource.ofFile_reports t p, fun c _ => c.extract_reports⟩
  · rw [extractFunction, Reports.bind_iff]
    simp only [FunctionSource.ofFile_reports, true_and, FunctionSource.extract_reports_iff]

/-- A mark without a name behind a type. -/
theorem errors_reported_bare_mark :
    let text : Text := "int64_t f$a() \x7b\n  int64_t v$;\n\x7d\n"
    let t : FileTree := ⟨[(["a.cpp"], .file (Utf8.encode text))], by decide, [], [], []⟩
    extractFunction t (.ofText "/a.cpp") ".h" = .error .namelessLocal ∧
      ExtractionError.namelessLocal.isReported = false := by
  intro text t
  exact ⟨by decide +kernel, rfl⟩

end GenScope.Cpp
