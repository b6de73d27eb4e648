import Mathlib
import GenScope.Text.Blank
import GenScope.Text.WordChar

/-!
# Classes of characters

White space and word characters have nothing in common (`isBlank_of_isWordChar`). Both classes are
tables of ranges, so this is a comparison of two tables beyond ASCII and a finite check below it.
-/

namespace GenScope.Text

/-- No range of one table meets a range of the other. -/
def rangesDisjoint (a b : List (Nat × Nat)) : Bool :=
  a.all fun r => b.all fun q => decide (r.2 < q.1) || decide (q.2 < r.1)

theorem inRanges_iff {ranges : List (Nat × Nat)} {c : Char} :
    inRanges ranges c = true ↔ ∃ r ∈ ranges, r.1 ≤ c.toNat ∧ c.toNat ≤ r.2 := by
  simp [inRanges]

theorem not_inRanges_of_disjoint {a b : List (Nat × Nat)} {c : Char}
    (h : rangesDisjoint a b = true) (ha : inRanges a c = true) : inRanges b c = false := by
  rw [Bool.eq_false_iff]
  intro hb
  obtain ⟨r, hr, hr1, hr2⟩ := inRanges_iff.1 ha
  obtain ⟨q, hq, hq1, hq2⟩ := inRanges_iff.1 hb
  have := List.all_eq_true.1 (List.all_eq_true.1 h r hr) q hq
  simp only [Bool.or_eq_true, decide_eq_true_eq] at this
  omega

theorem rangesDisjoint_blank_alphanumeric :
    rangesDisjoint blankRanges alphanumericRanges = true := by decide +kernel

theorem forall_ascii {p : Char → Prop} (h : ∀ n : Fin 128, p (Char.ofNat n)) {c : Char}
    (hc : c.toNat < 128) : p c := by
  simpa [Char.ofNat_toNat] using h ⟨c.toNat, hc⟩

theorem isBlank_of_isWordChar {c : Char} (h : isWordChar c = true) : isBlank c = false := by
  by_cases hc : c.toNat < 128
  · exact forall_ascii (p := fun c => isWordChar c = true → isBlank c = false) (by decide) hc h
  · have hne : c ≠ '_' := by rintro rfl; exact hc (by decide)
    have ha : inRanges alphanumericRanges c = true := by
      simpa [isWordChar, isAlphanumeric, hc, hne] using h
    rw [Bool.eq_false_iff]
    intro hb
    have := not_inRanges_of_disjoint rangesDisjoint_blank_alphanumeric hb
    simp [ha] at this

theorem isIdentChar_of_isWordChar {c : Char} (h : isWordChar c = true) : isIdentChar c = true := by
  simp [isIdentChar, h]

end GenScope.Text
