import GenScope.Proofs.Cpp.LocalLine
import GenScope.Proofs.Settings.Directory
import GenScope.Search.Label

/-!
# What a menu promises

The label of a candidate is read off its file by a shorter way than what is shown of the file afterwards.
Both ways agree on the name (`readName_of_extractedName`), and whatever stands in the way of the shorter one
is an error that is reported, so that it becomes a label and does not end the choice (`readName_reports`).
The user is asked once if there are several candidates, with a label for each, and what is opened is the
candidate at the chosen place (`choice_opens_labelled`).
-/

namespace GenScope

namespace Cpp

theorem FunctionSource.name_of_extract {f : FunctionSource} {a : FunctionArtifact} (h : f.extract = .ok a) :
    f.name = .ok a.name := by
  obtain ⟨name, hname, h⟩ := Except.bind_eq_ok h
  obtain ⟨type, -, h⟩ := Except.bind_eq_ok h
  obtain ⟨parameters, -, h⟩ := Except.bind_eq_ok h
  obtain ⟨locals, -, h⟩ := Except.bind_eq_ok h
  cases h
  exact hname

theorem ClassSource.name_of_extract {c : ClassSource} {a : ClassArtifact} (h : c.extract = .ok a) :
    c.name = .ok a.name := by
  obtain ⟨name, hname, h⟩ := Except.bind_eq_ok h
  cases h
  exact hname

/-- The extension of headers says nothing about the name. -/
theorem readFunctionName_of_extractFunction {t : FileTree} {p : Path} {ext : Text} {a : FunctionArtifact}
    (h : extractFunction t p ext = .ok a) : readFunctionName t p = .ok a.name := by
  obtain ⟨f, hf, h⟩ := Except.bind_eq_ok h
  rw [readFunctionName, FunctionSource.ofFile]
  rw [FunctionSource.ofFile] at hf
  cases hread : readSource t p with
  | error e => rw [hread] at hf; cases hf
  | ok text =>
    rw [hread] at hf
    cases hf
    have hname : (⟨p, ext, text⟩ : FunctionSource).name = .ok a.name := FunctionSource.name_of_extract h
    exact hname

theorem readClassName_of_extractClass {t : FileTree} {p : Path} {a : ClassArtifact}
    (h : extractClass t p = .ok a) : readClassName t p = .ok a.name := by
  obtain ⟨c, hc, h⟩ := Except.bind_eq_ok h
  rw [readClassName, hc]
  exact ClassSource.name_of_extract h

end Cpp

/-- Gives the same answers, and notes every menu that is shown behind those before. -/
def Chooser.noting {σ : Type} (chooser : Chooser σ) : Chooser (σ × List (List Text)) := fun s labels => do
  let (answer, next) ← chooser s.1 labels
  return (answer, (next, s.2 ++ [labels]))

namespace Label

variable {σ : Type} {t : FileTree} {kind : ArtifactKind} {ext name : Text} {p : Path} {candidates : List Path}

/-- The name in what is extracted from a file. -/
def extractedName (t : FileTree) (kind : ArtifactKind) (ext : Text) (p : Path) : Except Cpp.ExtractionError Text :=
  match kind with
  | .function => (Cpp.extractFunction t p ext).map (·.name)
  | .classType => (Cpp.extractClass t p).map (·.name)

/-! ### One label -/

theorem readName_of_extractedName (h : extractedName t kind ext p = .ok name) : readName t kind p = .ok name := by
  cases kind with
  | function =>
    cases ha : Cpp.extractFunction t p ext with
    | error e => simp [extractedName, ha, Except.map] at h
    | ok a =>
      simp only [extractedName, ha, Except.map, Except.ok.injEq] at h
      exact h ▸ Cpp.readFunctionName_of_extractFunction ha
  | classType =>
    cases ha : Cpp.extractClass t p with
    | error e => simp [extractedName, ha, Except.map] at h
    | ok a =>
      simp only [extractedName, ha, Except.map, Except.ok.injEq] at h
      exact h ▸ Cpp.readClassName_of_extractClass ha

theorem readName_reports (t : FileTree) (kind : ArtifactKind) (p : Path) : Cpp.Reports (readName t kind p) := by
  cases kind with
  | function => exact Cpp.Reports.bind_iff.2 ⟨Cpp.FunctionSource.ofFile_reports t p _, fun f _ => f.name_reports⟩
  | classType => exact Cpp.Reports.bind_iff.2 ⟨Cpp.ClassSource.ofFile_reports t p, fun c _ => c.name_reports⟩

/-- What a label says about the file that is opened under it. -/
structure Describes (t : FileTree) (kind : ArtifactKind) (p : Path) (label : Text) : Prop where
  /-- Whatever is extracted from the file has the name of the label, if it has one. -/
  extracted : ∀ ext name, extractedName t kind ext p = .ok name → name ≠ [] → label = name
  /-- A file without a name, or one that cannot be read or recognised, has the error label. -/
  read : readName t kind p = .ok label ∨ label = errorLabel
  /-- Only errors that are reported keep the name from being read. -/
  reports : Cpp.Reports (readName t kind p)

theorem describes_ofFile (t : FileTree) (kind : ArtifactKind) (p : Path) :
    Describes t kind p (ofFile t kind p).value := by
  unfold ofFile
  cases hread : readName t kind p with
  | error e =>
    refine ⟨fun ext name h _ => ?_, .inr rfl, readName_reports t kind p⟩
    rw [readName_of_extractedName h] at hread
    cases hread
  | ok name =>
    have hlabel : (if name.isEmpty then errorLabel else name) = if name = [] then errorLabel else name := by
      simp
    refine ⟨fun ext name' h hne => ?_, ?_, readName_reports t kind p⟩
    · rw [readName_of_extractedName h] at hread
      cases hread
      exact hlabel.trans (if_neg hne)
    · by_cases hne : name = []
      · exact .inr (hlabel.trans (if_pos hne))
      · exact .inl (hread.trans (congrArg _ (hlabel.trans (if_neg hne)).symm))

/-! ### The menu -/

theorem ofFiles_value (t : FileTree) (kind : ArtifactKind) (ps : List Path) :
    (ofFiles t kind ps).value = ps.map fun p => (ofFile t kind p).value := by
  induction ps with
  | nil => rfl
  | cons p ps ih => exact congrArg _ ih

theorem forall₂_describes (t : FileTree) (kind : ArtifactKind) (ps : List Path) :
    List.Forall₂ (Describes t kind) ps (ofFiles t kind ps).value := by
  rw [ofFiles_value, List.forall₂_map_right_iff, List.forall₂_same]
  exact fun p _ => describes_ofFile t kind p

theorem resolve_of_length_lt {chooser : Chooser σ} {s : σ} (h : candidates.length < 2) :
    (resolve t kind chooser s candidates).value = (candidates.head?, s) := by
  match candidates with
  | [] => rfl
  | [p] => rfl
  | _ :: _ :: _ => simp at h

theorem resolve_of_le_length {chooser : Chooser σ} {s : σ} (h : 2 ≤ candidates.length) :
    (resolve t kind chooser s candidates).value =
      let answer := (chooser s (ofFiles t kind candidates).value).value
      (answer.1.bind (candidates[·]?), answer.2) := by
  match candidates with
  | [] => simp at h
  | [p] => simp at h
  | p :: q :: ps =>
    show (Logged.bind _ _).value = _
    rw [Logged.value_bind]
    show (Logged.bind _ _).value = _
    rw [Logged.value_bind]
    rcases (chooser s (ofFiles t kind (p :: q :: ps)).value).value with ⟨_ | n, next⟩
    · rfl
    · rfl

/-- What is opened is what the menu said: every label describes its candidate, there is no menu for fewer than
two candidates and otherwise one with all labels, and a choice opens the candidate whose label was chosen. -/
theorem choice_opens_labelled (t : FileTree) (kind : ArtifactKind) (chooser : Chooser σ) (s : σ)
    (menus : List (List Text)) (candidates : List Path)
    (hchooser : ∀ n, (chooser s (ofFiles t kind candidates).value).value.1 = some n →
      n < (ofFiles t kind candidates).value.length) :
    let labels := (ofFiles t kind candidates).value
    let answer := (chooser s labels).value
    let outcome := (resolve t kind chooser.noting (s, menus) candidates).value
    (resolve t kind chooser s candidates).value = (outcome.1, outcome.2.1) ∧
    List.Forall₂ (Describes t kind) candidates labels ∧
    (candidates.length < 2 → outcome = (candidates.head?, s, menus)) ∧
    (2 ≤ candidates.length → outcome.2 = (answer.2, menus ++ [labels]) ∧
      (answer.1 = none → outcome.1 = none) ∧
      ∀ n, answer.1 = some n → ∃ p label, outcome.1 = some p ∧ candidates[n]? = some p ∧
        labels[n]? = some label ∧ Describes t kind p label) := by
  intro labels answer outcome
  have hdescribes : List.Forall₂ (Describes t kind) candidates labels := forall₂_describes t kind candidates
  rcases Nat.lt_or_ge candidates.length 2 with hlt | hle
  · have houtcome : outcome = (candidates.head?, s, menus) := resolve_of_length_lt hlt
    refine ⟨?_, hdescribes, fun _ => houtcome, fun hle => absurd hle (by omega)⟩
    rw [houtcome, resolve_of_length_lt hlt]
  · have houtcome : outcome = (answer.1.bind (candidates[·]?), answer.2, menus ++ [labels]) :=
      resolve_of_le_length hle
    refine ⟨?_, hdescribes, fun hlt => absurd hlt (by omega), fun _ => ⟨?_, fun hnone => ?_, fun n hn => ?_⟩⟩
    · rw [houtcome, resolve_of_le_length hle]
    · rw [houtcome]
    · rw [houtcome, hnone]
      rfl
    · have hlabel : n < labels.length := hchooser n hn
      have hp : n < candidates.length := by rwa [hdescribes.length_eq]
      refine ⟨candidates[n], labels[n], ?_, List.getElem?_eq_getElem hp, List.getElem?_eq_getElem hlabel, ?_⟩
      · rw [houtcome, hn]
        exact List.getElem?_eq_getElem hp
      · exact hdescribes.get hp hlabel

/-- Of a file that is missing, one with a definition that is broken off, and two functions, the last one is
chosen. -/
theorem choice_opens_labelled_fourth :
    let t : FileTree := ⟨[(["out"], .directory),
      (["out", "a.cpp"], .file (Utf8.encode "int64_t f$VK$$a() \x7b\n\x7d\n")),
      (["out", "b.cpp"], .file (Utf8.encode "int64_t f$b() \x7b\n\x7d\n")),
      (["out", "c.cpp"], .file (0xff :: Utf8.encode "int64_t f$c("))], by decide +kernel, [], [], []⟩
    let candidates := [Path.ofText "/out/gone.cpp", .ofText "/out/c.cpp", .ofText "/out/a.cpp", .ofText "/out/b.cpp"]
    let s : Script := ⟨[some 3], []⟩
    let labels := (ofFiles t .function candidates).value
    (∀ n, (Script.chooser s labels).value.1 = some n → n < labels.length) ∧
    labels = ["<error>", "<error>", "VK::a", "b"] ∧
    (resolve t .function Script.chooser s candidates).value = (some (.ofText "/out/b.cpp"), ⟨[], [labels]⟩) ∧
    Describes t .function (.ofText "/out/b.cpp") "b" := by
  intro t candidates s labels
  have hlabels : labels = ["<error>", "<error>", "VK::a", "b"] := by decide +kernel
  have hchooser : ∀ n, (Script.chooser s labels).value.1 = some n → n < labels.length := by
    rintro n ⟨⟩
    rw [hlabels]
    decide
  obtain ⟨hplain, -, -, hchoice⟩ := choice_opens_labelled t .function Script.chooser s [] candidates hchooser
  obtain ⟨hstate, -, hopens⟩ := hchoice (by decide)
  obtain ⟨p, label, hp, hcandidate, hlabel, hdescribes⟩ := hopens 3 rfl
  cases hcandidate
  change labels[3]? = some label at hlabel
  rw [hlabels] at hlabel
  cases hlabel
  refine ⟨hchooser, hlabels, ?_, hdescribes⟩
  rw [hplain, hp, hstate]
  rfl

end Label

end GenScope
