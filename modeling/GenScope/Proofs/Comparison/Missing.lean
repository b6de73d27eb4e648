import GenScope.Proofs.Comparison.Accounting

/-!
# Missing counterparts

Whether a counterpart is there is told from what was read of it: what cannot be read has the head of an
empty file. A difference is therefore said to be that of a missing counterpart exactly if the head of the
master file is not empty and the other one is (`differenceAt_missing_iff`), which is right unless the
counterpart is an empty file or one that cannot be read (`missing_iff`). Such a counterpart is taken for a
missing one, and an empty master file does not differ from a missing counterpart (`missing_misjudged`).
-/

namespace GenScope

variable {t : FileTree} {p : Path} {limit : Nat}

theorem readHead_eq_nil_iff (hlimit : 0 < limit) :
    readHead t p (some limit) = [] ↔ ∀ content, t.read p = .ok content → content = [] := by
  unfold readHead
  rcases t.read p with fault | content
  · simp
  · have hne : limit ≠ 0 := by omega
    simp [hne]

namespace ComparisonSettings

variable {s : ComparisonSettings} {names : List Text}

theorem differenceAt_missing_iff : (∃ d, s.differenceAt t names = some d ∧ d.isMissing = true) ↔
    readHead t (s.masterPath.below names) s.headerBytes ≠ [] ∧
      readHead t (s.comparedPath.below names) s.headerBytes = [] := by
  unfold differenceAt
  dsimp only
  split
  · rename_i heq
    rw [heq]
    simp
  · rename_i hne
    constructor
    · rintro ⟨d, hd, hmissing⟩
      obtain rfl := Option.some.inj hd
      have hcompared := List.isEmpty_iff.1 hmissing
      exact ⟨fun hmaster => hne (hmaster.trans hcompared.symm), hcompared⟩
    · rintro ⟨-, hcompared⟩
      exact ⟨_, rfl, List.isEmpty_iff.2 hcompared⟩

/-- Of a counterpart that can be read and is not empty if it is a file, the comparison says that it is
missing if and only if there is no file and the master file can be read and is not empty. -/
theorem missing_iff {r : FieldReaders} {before : FileTree} {v : Value}
    (hs : ComparisonSettings.ofValue r before v = .ok (.valid s)) (t : FileTree) (names : List Text)
    (hcounterpart : t.isFile (s.comparedPath.below names) = true →
      ∃ content, t.read (s.comparedPath.below names) = .ok content ∧ content ≠ []) :
    ∃ difference, s.compareFile t (s.masterPath.below names) = .ok difference ∧
      ((∃ d, difference = some d ∧ d.isMissing = true) ↔
        t.isFile (s.comparedPath.below names) = false ∧
          ∃ content, t.read (s.masterPath.below names) = .ok content ∧ content ≠ []) := by
  have hlimit := headerBytes_pos_of_ofValue hs
  refine ⟨_, compareFile_below s t names, ?_⟩
  rw [differenceAt_missing_iff, ne_eq, readHead_eq_nil_iff hlimit, readHead_eq_nil_iff hlimit, and_comm]
  refine and_congr ⟨fun hempty => ?_, fun hnone content hread => ?_⟩ (by push Not; exact Iff.rfl)
  · rw [Bool.eq_false_iff]
    intro hfile
    obtain ⟨content, hread, hne⟩ := hcounterpart hfile
    exact hne (hempty content hread)
  · rw [FileTree.isFile_iff.2 ⟨_, FileTree.read_eq_ok_iff.1 hread, rfl⟩] at hnone
    cases hnone

/-- A directory at the path of the counterpart is no file. -/
theorem missing_iff_directory :
    let t : FileTree := ⟨[(["c"], .directory), (["c", "a.h"], .directory), (["d"], .directory), (["m"], .directory),
      (["m", "a.h"], .file [1, 2])], by decide +kernel, [], [], []⟩
    let v : Value := .object [(some ("master_root" : Text), .text "/m"), (some ("cmp_root" : Text), .text "/c"),
      (some ("diff_root" : Text), .text "/d")]
    let s : ComparisonSettings := ⟨"/m", "/c", "/d", false, 64, 30⟩
    (ComparisonSettings.ofValue .lax t v = .ok (.valid s) ∧ (t.isFile (s.comparedPath.below ["a.h"]) = true →
      ∃ content, t.read (s.comparedPath.below ["a.h"]) = .ok content ∧ content ≠ [])) ∧
    ∃ d, s.compareFile t (s.masterPath.below ["a.h"]) = .ok (some d) ∧ d.isMissing = true := by
  intro t v s
  have hs : ComparisonSettings.ofValue .lax t v = .ok (.valid s) := by rfl
  have hcounterpart : t.isFile (s.comparedPath.below ["a.h"]) = true →
      ∃ content, t.read (s.comparedPath.below ["a.h"]) = .ok content ∧ content ≠ [] :=
    fun hfile => absurd hfile (by decide +kernel)
  refine ⟨⟨hs, hcounterpart⟩, ?_⟩
  obtain ⟨difference, hdifference, hmissing⟩ := missing_iff hs t ["a.h"] hcounterpart
  obtain ⟨d, rfl, hd⟩ := hmissing.2 ⟨by decide +kernel, [1, 2], by decide +kernel, by decide⟩
  exact ⟨d, hdifference, hd⟩

/-- A missing counterpart of an empty file is no difference, and a counterpart that is empty or cannot be
read is said to be missing. -/
theorem missing_misjudged :
    let t : FileTree := ⟨[(["c"], .directory), (["c", "b.cpp"], .file []), (["c", "c.cpp"], .locked),
      (["d"], .directory), (["m"], .directory), (["m", "a.cpp"], .file []), (["m", "b.cpp"], .file [1]),
      (["m", "c.cpp"], .file [1])], by decide +kernel, [], [], []⟩
    let v : Value := .object [(some ("master_root" : Text), .text "/m"), (some ("cmp_root" : Text), .text "/c"),
      (some ("diff_root" : Text), .text "/d")]
    let s : ComparisonSettings := ⟨"/m", "/c", "/d", false, 64, 30⟩
    (t.WellFormed ∧ ComparisonSettings.ofValue .lax t v = .ok (.valid s)) ∧
    (t.isFile (.ofText "/m/a.cpp") = true ∧ t.pathExists (.ofText "/c/a.cpp") = false ∧
      s.compareFile t (.ofText "/m/a.cpp") = .ok none) ∧
    (t.isFile (.ofText "/m/b.cpp") = true ∧ t.isFile (.ofText "/c/b.cpp") = true ∧
      s.compareFile t (.ofText "/m/b.cpp") = .ok (some ⟨"b.cpp", false, true, true⟩)) ∧
    t.isFile (.ofText "/m/c.cpp") = true ∧ t.isFile (.ofText "/c/c.cpp") = true ∧
      s.compareFile t (.ofText "/m/c.cpp") = .ok (some ⟨"c.cpp", false, true, true⟩) := by
  intro t v s
  exact ⟨⟨.of_entries (by decide +kernel), by rfl⟩, by decide +kernel, by decide +kernel, by decide +kernel⟩

end ComparisonSettings

end GenScope
