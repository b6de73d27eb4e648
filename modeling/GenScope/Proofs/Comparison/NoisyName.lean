import GenScope.Proofs.Comparison.Accounting
import GenScope.Proofs.Text.Fragment

/-!
# Which differences are important

A difference in the first bytes is important unless the name of the file is noisy
(`important_iff_of_heads`). A name is noisy if it ends as those of library versions do, and also if it
holds the name of a numbered file of variables anywhere (`isNoisyName_iff`), so that a file is taken for
noise because of a part of its name (`unimportant_by_part`).
-/

namespace GenScope

/-! ### Names -/

/-- The name of a numbered file of variables. -/
def IsVariablesName (name : Text) : Prop :=
  ∃ digits : Text, digits ≠ [] ∧ (∀ c ∈ digits, Text.isDecimal c = true) ∧ name = "vars" ++ digits ++ ".cpp"

section Names

variable {name s : Text}

/-- The digits are all those that follow: the dot behind them is none. -/
theorem isVariablesAt_iff : isVariablesAt s = true ↔ ∃ part, IsVariablesName part ∧ part <+: s := by
  unfold isVariablesAt
  constructor
  · intro h
    split at h
    · rename_i rest hafter
      obtain rfl := Text.after?_eq_some_iff.1 hafter
      obtain ⟨hdigit, hext⟩ := Bool.and_eq_true_iff.1 h
      obtain ⟨after, hafter⟩ := Text.startsWith_iff.1 hext
      refine ⟨"vars" ++ rest.takeWhile Text.isDecimal ++ ".cpp", ⟨_, ?_, ?_, rfl⟩, after, ?_⟩
      · cases rest with
        | nil => simp at hdigit
        | cons c rest =>
          have hc : Text.isDecimal c = true := by simpa using hdigit
          simp [hc]
      · exact fun c hc => List.mem_takeWhile_imp hc
      · rw [List.append_assoc, List.append_assoc, hafter, List.takeWhile_append_dropWhile]
    · cases h
  · rintro ⟨part, ⟨digits, hne, hdigits, rfl⟩, after, rfl⟩
    have hdrop : (digits ++ (".cpp" ++ after : Text)).dropWhile Text.isDecimal = ".cpp" ++ after := by
      rw [List.dropWhile_append_of_pos hdigits]
      exact List.dropWhile_cons_of_neg (by decide)
    have hhead : (digits ++ (".cpp" ++ after : Text)).head?.any Text.isDecimal = true := by
      obtain ⟨c, digits, rfl⟩ := List.exists_cons_of_ne_nil hne
      simpa using hdigits c (by simp)
    rw [List.append_assoc, List.append_assoc, Text.after?_append]
    dsimp only
    rw [hhead, hdrop, Text.startsWith_iff.2 (List.prefix_append ..)]
    rfl

theorem namesVariables_iff : namesVariables name = true ↔ ∃ part, IsVariablesName part ∧ part <:+: name := by
  induction name with
  | nil =>
    refine iff_of_false (by simp [namesVariables]) ?_
    rintro ⟨part, ⟨digits, -, -, rfl⟩, hinfix⟩
    simpa using List.infix_nil.1 hinfix
  | cons c name ih =>
    rw [namesVariables, Bool.or_eq_true, isVariablesAt_iff, ih, ← exists_or]
    refine exists_congr fun part => ?_
    rw [← and_or_left, List.infix_cons_iff]

theorem isNoisyName_iff : isNoisyName name = true ↔
    (∃ part, IsVariablesName part ∧ part <:+: name) ∨ ("_lib_version.h" : Text) <:+ name := by
  rw [isNoisyName, Bool.or_eq_true, namesVariables_iff, Text.endsWith_iff]

end Names

/-! ### Differences -/

namespace ComparisonSettings

/-- A file and its counterpart with heads that differ in the bytes in front of the checksum with comments
are reported to differ. The difference is important if and only if no part of the name is that of a
numbered file of variables and the name does not end as those of library versions do. -/
theorem important_iff_of_heads (s : ComparisonSettings) (t : FileTree) (names : List Text)
    (h : (readHead t (s.masterPath.below names) s.headerBytes).take s.commentFreeBytes ≠
      (readHead t (s.comparedPath.below names) s.headerBytes).take s.commentFreeBytes) :
    ∃ d, s.compareFile t (s.masterPath.below names) = .ok (some d) ∧ d.onlyComments = false ∧
      (d.isImportant = true ↔
        ¬ (∃ part, IsVariablesName part ∧ part <:+: (s.masterPath.below names).name) ∧
          ¬ ("_lib_version.h" : Text) <:+ (s.masterPath.below names).name) := by
  have hheads : readHead t (s.masterPath.below names) s.headerBytes ≠
      readHead t (s.comparedPath.below names) s.headerBytes := fun heq => h (by rw [heq])
  rw [compareFile_below, differenceAt]
  refine ⟨_, congrArg _ (if_neg hheads), by simpa using h, ?_⟩
  rw [← not_or, ← isNoisyName_iff]
  simp [h]

/-- A number behind `vars` is not enough if the extension does not follow it. -/
theorem important_near_vars :
    let t : FileTree := ⟨[(["c"], .directory), (["c", "vars1x.cpp"], .file [1, 3]), (["d"], .directory),
      (["m"], .directory), (["m", "vars1x.cpp"], .file [1, 2])], by decide +kernel, [], [], []⟩
    let s : ComparisonSettings := ⟨"/m", "/c", "/d", false, 64, 30⟩
    (readHead t (s.masterPath.below ["vars1x.cpp"]) s.headerBytes).take s.commentFreeBytes ≠
      (readHead t (s.comparedPath.below ["vars1x.cpp"]) s.headerBytes).take s.commentFreeBytes ∧
    ∃ d, s.compareFile t (.ofText "/m/vars1x.cpp") = .ok (some d) ∧ d.isImportant = true := by
  intro t s
  have hheads : (readHead t (s.masterPath.below ["vars1x.cpp"]) s.headerBytes).take s.commentFreeBytes ≠
      (readHead t (s.comparedPath.below ["vars1x.cpp"]) s.headerBytes).take s.commentFreeBytes := by decide
  obtain ⟨d, hd, -, himportant⟩ := important_iff_of_heads s t ["vars1x.cpp"] hheads
  refine ⟨hheads, d, hd, himportant.2 ⟨?_, by decide +kernel⟩⟩
  rw [← namesVariables_iff]
  decide +kernel

/-- The name of another file holds that of a numbered file of variables. -/
theorem unimportant_by_part :
    let t : FileTree := ⟨[(["c"], .directory), (["d"], .directory), (["m"], .directory),
      (["m", "myvars1.cpp"], .file [1])], by decide +kernel, [], [], []⟩
    let s : ComparisonSettings := ⟨"/m", "/c", "/d", false, 64, 30⟩
    (t.WellFormed ∧ ComparisonSettings.ofValue .lax t (.object [(some ("master_root" : Text), .text "/m"),
        (some ("cmp_root" : Text), .text "/c"), (some ("diff_root" : Text), .text "/d")]) = .ok (.valid s) ∧
      (readHead t (s.masterPath.below ["myvars1.cpp"]) s.headerBytes).take s.commentFreeBytes ≠
        (readHead t (s.comparedPath.below ["myvars1.cpp"]) s.headerBytes).take s.commentFreeBytes ∧
      ¬ IsVariablesName "myvars1.cpp" ∧ ¬ ("_lib_version.h" : Text) <:+ "myvars1.cpp") ∧
    s.compareFile t (.ofText "/m/myvars1.cpp") = .ok (some ⟨"myvars1.cpp", false, true, false⟩) := by
  intro t s
  refine ⟨⟨.of_entries (by decide +kernel), by rfl, by decide, ?_, by decide +kernel⟩, by decide +kernel⟩
  rintro ⟨digits, -, -, hname⟩
  exact absurd (List.cons.inj hname).1 (by decide)

end ComparisonSettings

end GenScope
