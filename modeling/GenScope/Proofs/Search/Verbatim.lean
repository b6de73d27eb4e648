import GenScope.Proofs.FileTree.Walk
import GenScope.Proofs.Text.FinalSigma
import GenScope.Proofs.Text.Fragment
import GenScope.Search.Scan

/-!
# Fragments of file names

A scan lower-cases the fragment and each name apart and compares what they become. A fragment of a name is
therefore found if none of its capital sigmas has another form in the name than alone, and the start of a name
is found only then (`verbatim_found`). Those that are found in every name are the fragments that neither end in
a sigma nor start with one.
-/

namespace GenScope.Scan

variable {t : FileTree} {root p : Path} {fragment name : Text} {anchored : Bool}

theorem matchesName_iff : matchesName fragment false name = true ↔ fragment <:+: Text.lower name :=
  Text.occursIn_iff

theorem matchesName_anchored_iff : matchesName fragment true name = true ↔ fragment <+: Text.lower name :=
  Text.startsWith_iff

theorem found_of_mem (hp : p ∈ t.filesBelow root) (stats : ScanStats) (fragment : Text) (anchored : Bool) :
    ∃ found, (find t stats root fragment anchored).value.result = .ok found ∧
      (p ∈ found ↔ matchesName (Text.lower fragment) anchored p.name = true) := by
  obtain ⟨loc, hf, hdir⟩ := FileTree.follow_of_mem_filesBelow hp
  rw [find_of_isDirectory (FileTree.isDirectory_of_follow hf hdir)]
  refine ⟨_, rfl, ?_⟩
  rw [matching, List.mem_filter]
  exact and_iff_right hp

/-- A fragment of a file's name is found, in front of it also by an anchored scan, unless one of its capital
sigmas has another form in the name than alone. The fragments that this can happen to are those that end in a
sigma or start with one, and in front of a name those that end in one. -/
theorem verbatim_found (hp : p ∈ t.filesBelow root) (stats : ScanStats) (fragment : Text) :
    (∃ found, (find t stats root fragment false).value.result = .ok found ∧
      (p ∈ found ↔ Text.lower fragment <:+: Text.lower p.name) ∧
      ∀ before after, p.name = before ++ fragment ++ after →
        ¬ Text.SigmaTurns before fragment after → p ∈ found) ∧
    (∃ found, (find t stats root fragment true).value.result = .ok found ∧
      ∀ after, p.name = fragment ++ after → (p ∈ found ↔ ¬ Text.SigmaTurns [] fragment after)) ∧
    ((∀ before after, matchesName (Text.lower fragment) false (before ++ fragment ++ after) = true) ↔
      ¬ Text.EndsInSigma fragment ∧ ¬ Text.StartsWithSigma fragment) ∧
    ((∀ after, matchesName (Text.lower fragment) true (fragment ++ after) = true) ↔
      ¬ Text.EndsInSigma fragment) := by
  refine ⟨?_, ?_, ?_, ?_⟩
  · obtain ⟨found, hfound, hmem⟩ := found_of_mem hp stats fragment false
    rw [matchesName_iff] at hmem
    refine ⟨found, hfound, hmem, fun before after hname hturns => ?_⟩
    rw [hmem, hname]
    exact Text.lower_infix_of_not_sigmaTurns hturns
  · obtain ⟨found, hfound, hmem⟩ := found_of_mem hp stats fragment true
    refine ⟨found, hfound, fun after hname => ?_⟩
    rw [hmem, matchesName_anchored_iff, hname]
    exact Text.lower_prefix_iff
  · simp only [matchesName_iff]
    exact Text.lower_infix_iff
  · simp only [matchesName_anchored_iff]
    exact Text.lower_prefix_all_iff

/-- A sigma within a word is found as it stands. -/
theorem verbatim_found_sigma :
    let t : FileTree := ⟨[(["out"], .directory), (["out", "ΑΣΑ.cpp"], .file [])], by decide +kernel, [], [], []⟩
    let p : Path := .ofText "/out/ΑΣΑ.cpp"
    p ∈ t.filesBelow (.ofText "/out") ∧
    (∃ found, (find t .zero (.ofText "/out") "ΣΑ" false).value.result = .ok found ∧ p ∈ found) ∧
    ∃ found, (find t .zero (.ofText "/out") "ΑΣΑ" true).value.result = .ok found ∧ p ∈ found := by
  intro t p
  have hp : p ∈ t.filesBelow (.ofText "/out") := by decide +kernel
  have hname : p.name = "ΑΣΑ.cpp" := by decide +kernel
  have hwithin : ¬ Text.SigmaTurns "Α" "ΣΑ" ".cpp" := Text.not_sigmaTurns_iff.2 (by decide +kernel)
  have hfront : ¬ Text.SigmaTurns [] "ΑΣΑ" ".cpp" := Text.not_sigmaTurns_iff.2 (by decide +kernel)
  obtain ⟨⟨found, hfound, -, hmem⟩, -⟩ := verbatim_found hp .zero "ΣΑ"
  obtain ⟨-, ⟨first, hfirst, hatStart⟩, -⟩ := verbatim_found hp .zero "ΑΣΑ"
  exact ⟨hp, ⟨found, hfound, hmem "Α" ".cpp" hname hwithin⟩, first, hfirst, (hatStart ".cpp" hname).2 hfront⟩

/-- The same sigma at the end of the fragment is a final one there, and is not found. -/
theorem final_sigma_missed :
    let t : FileTree := ⟨[(["out"], .directory), (["out", "ΑΣΑ.cpp"], .file [])], by decide +kernel, [], [], []⟩
    let p : Path := .ofText "/out/ΑΣΑ.cpp"
    p ∈ t.filesBelow (.ofText "/out") ∧ p.name = ("ΑΣ" : Text) ++ "Α.cpp" ∧
    (find t .zero (.ofText "/out") "ΑΣ" false).value.result = .ok [] ∧
    (find t .zero (.ofText "/out") "ΑΣ" true).value.result = .ok [] := by
  decide +kernel

end GenScope.Scan
