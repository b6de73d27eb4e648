import GenScope.Proofs.Text.CharClass
import GenScope.Text.Lowercase

/-!
# Lower case in context

Lower-cased text is left as it is by lower-casing (`lower_lower`, `lower_of_mem_lower`), which is a
comparison of the table of capitals with the small letters it gives. What becomes of a character
depends on its neighbours only through the first one on each side that case does not look through,
so a slash parts a text (`lower_append_slash`) and a small ASCII ending stays what it is behind any
text, which does not depend on how the ending goes on (`lower_append_endings`).
-/

namespace GenScope.Text

/-! ### Small letters -/

/-- Lower-casing leaves the character as it is. -/
def IsSmall (c : Char) : Prop := c ≠ 'Σ' ∧ lowerChar c = [c]

instance (c : Char) : Decidable (IsSmall c) := inferInstanceAs (Decidable (_ ∧ _))

/-- All capitals, those without an entry in the table of shifts included. -/
def capitals : List CaseRun := ⟨65, 90, 1, 32⟩ :: ⟨0x130, 0x130, 1, 0⟩ :: ⟨931, 931, 1, 0⟩ :: caseRuns

/-- The small letter of a capital. -/
def CaseRun.small (r : CaseRun) (n : Nat) : Nat := (n + r.shift).toNat

/-- No small letter of the run is a capital of the other one: they lie apart, or the capitals are
every second character and the small letters stand between them. -/
def CaseRun.misses (r q : CaseRun) : Bool :=
  (r.small r.last).blt q.first || q.last.blt (r.small r.first) ||
    (q.stride == 2 && (r.stride == 2 || r.first == r.last) && (r.small r.first + q.first) % 2 == 1)

theorem CaseRun.holds_iff {r : CaseRun} {n : Nat} :
    r.holds n = true ↔ r.first ≤ n ∧ n ≤ r.last ∧ (n - r.first) % r.stride = 0 := by
  simp [holds, and_assoc]

theorem CaseRun.not_holds_of_misses {r q : CaseRun} {n : Nat} (h : r.misses q = true)
    (hlow : 0 ≤ r.first + r.shift) (hn : r.holds n = true) : q.holds (r.small n) = false := by
  obtain ⟨h1, h2, h3⟩ := holds_iff.1 hn
  rw [Bool.eq_false_iff]
  intro hq
  obtain ⟨h4, h5, h6⟩ := holds_iff.1 hq
  simp only [misses, small, Bool.or_eq_true, Bool.and_eq_true, Nat.blt_eq, beq_iff_eq] at h h4 h5 h6
  rcases h with (h | h) | ⟨⟨h7, h8⟩, h9⟩
  · omega
  · omega
  · rw [h7] at h6
    rcases h8 with h8 | h8
    · rw [h8] at h3; omega
    · omega

theorem caseRuns_miss_capitals :
    caseRuns.all (fun r => decide (0 ≤ r.first + r.shift) && capitals.all r.misses) = true := by
  decide +kernel

theorem isSmall_of_forall {c : Char} (h : ∀ q ∈ capitals, q.holds c.toNat = false) : IsSmall c := by
  have hsigma : c ≠ 'Σ' := by
    rintro rfl
    exact absurd (h ⟨931, 931, 1, 0⟩ (by simp [capitals])) (by decide)
  refine ⟨hsigma, ?_⟩
  by_cases hc : c.toNat < 128
  · have hsmall : c.toLower = c :=
      forall_ascii (p := fun c => (⟨65, 90, 1, 32⟩ : CaseRun).holds c.toNat = false → c.toLower = c)
        (by decide) hc (h _ (by simp [capitals]))
    rw [lowerChar, if_pos hc, hsmall]
  · have hdot : c.toNat ≠ 0x130 := by
      intro he
      have := h ⟨0x130, 0x130, 1, 0⟩ (by simp [capitals])
      rw [he] at this
      exact absurd this (by decide)
    have hnone : caseRuns.find? (·.holds c.toNat) = none :=
      List.find?_eq_none.2 fun q hq => by simp [h q (by simp [capitals, hq])]
    rw [lowerChar, if_neg hc, if_neg hdot, hnone]

theorem toNat_ofNat (n : Nat) : (Char.ofNat n).toNat = n ∨ Char.ofNat n = '\x00' := by
  by_cases h : n.isValidChar
  · left; rw [Char.ofNat, dif_pos h]; rfl
  · right; rw [Char.ofNat, dif_neg h]; rfl

theorem isSmall_of_mem_lowerChar {c d : Char} (hc : c ≠ 'Σ') (h : d ∈ lowerChar c) : IsSmall d := by
  unfold lowerChar at h
  split at h
  · rename_i hascii
    rw [List.mem_singleton.1 h]
    exact forall_ascii (p := fun c => IsSmall c.toLower) (by decide +kernel) hascii
  · split at h
    · have hboth : IsSmall 'i' ∧ IsSmall (Char.ofNat 0x307) := by decide +kernel
      rcases List.mem_cons.1 h with rfl | h
      · exact hboth.1
      · rw [List.mem_singleton.1 h]; exact hboth.2
    · rename_i hascii hdot
      split at h
      · rename_i r hr
        have hholds : r.holds c.toNat = true := by simpa using List.find?_some hr
        have hrow := List.all_eq_true.1 caseRuns_miss_capitals r (List.mem_of_find?_eq_some hr)
        obtain ⟨hlow, hmiss⟩ := Bool.and_eq_true_iff.1 hrow
        rw [List.mem_singleton.1 h]
        rcases toNat_ofNat (r.small c.toNat) with hn | hn
        · refine isSmall_of_forall fun q hq => ?_
          change q.holds (Char.ofNat (r.small c.toNat)).toNat = false
          rw [hn]
          exact CaseRun.not_holds_of_misses (List.all_eq_true.1 hmiss q hq) (by simpa using hlow) hholds
        · exact hn ▸ (by decide : IsSmall '\x00')
      · rename_i hnone
        rw [List.mem_singleton.1 h]
        refine ⟨hc, ?_⟩
        rw [lowerChar, if_neg hascii, if_neg hdot, hnone]

theorem isSmall_of_mem_lowerAfter {before s : Text} {c : Char} (h : c ∈ lowerAfter before s) :
    IsSmall c := by
  induction s generalizing before with
  | nil => cases h
  | cons d s ih =>
    rw [lowerAfter] at h
    rcases List.mem_append.1 h with h | h
    · split at h
      · have hforms : IsSmall 'ς' ∧ IsSmall 'σ' := by decide +kernel
        rw [List.mem_singleton.1 h]
        split
        · exact hforms.1
        · exact hforms.2
      · rename_i hd
        exact isSmall_of_mem_lowerChar hd h
    · exact ih h

theorem lowerAfter_of_forall_isSmall {s : Text} (h : ∀ c ∈ s, IsSmall c) (before : Text) :
    lowerAfter before s = s := by
  induction s generalizing before with
  | nil => rfl
  | cons c s ih =>
    obtain ⟨hsigma, hc⟩ := h c (by simp)
    rw [lowerAfter, if_neg hsigma, hc, ih fun d hd => h d (by simp [hd])]
    rfl

theorem lower_of_mem_lower {s t : Text} (h : ∀ c ∈ s, c ∈ lower t) : lower s = s :=
  lowerAfter_of_forall_isSmall (fun c hc => isSmall_of_mem_lowerAfter (h c hc)) []

theorem lower_lower (s : Text) : lower (lower s) = lower s := lower_of_mem_lower fun _ h => h

/-! ### Neighbours -/

theorem nextIsCased_cons (c : Char) (s : Text) : nextIsCased (c :: s) =
    if inRanges caseIgnorableRanges c then nextIsCased s else inRanges casedRanges c := by
  rw [nextIsCased, List.dropWhile_cons]
  by_cases hc : inRanges caseIgnorableRanges c = true
  · rw [if_pos hc, if_pos hc]; rfl
  · rw [if_neg hc, if_neg hc]

theorem nextIsCased_append_congr {v w : Text} (h : nextIsCased v = nextIsCased w) (u : Text) :
    nextIsCased (u ++ v) = nextIsCased (u ++ w) := by
  induction u with
  | nil => exact h
  | cons c u ih => rw [List.cons_append, List.cons_append, nextIsCased_cons, nextIsCased_cons, ih]

theorem lowerAfter_congr {before before' : Text} (h : nextIsCased before = nextIsCased before') (s : Text) :
    lowerAfter before s = lowerAfter before' s := by
  induction s generalizing before before' with
  | nil => rfl
  | cons c s ih =>
    have hnext : nextIsCased (c :: before) = nextIsCased (c :: before') := by
      rw [nextIsCased_cons, nextIsCased_cons, h]
    rw [lowerAfter, lowerAfter, h, ih hnext]

/-- What a text becomes does not depend on what follows, as long as case sees the same there. -/
theorem lowerAfter_append {v w : Text} (h : nextIsCased v = nextIsCased w) (before u : Text) :
    ∃ small, lowerAfter before (u ++ v) = small ++ lowerAfter (u.reverse ++ before) v ∧
      lowerAfter before (u ++ w) = small ++ lowerAfter (u.reverse ++ before) w := by
  induction u generalizing before with
  | nil => exact ⟨[], rfl, rfl⟩
  | cons c u ih =>
    obtain ⟨small, hv, hw⟩ := ih (c :: before)
    have hbefore : (c :: u).reverse ++ before = u.reverse ++ c :: before := by simp
    rw [hbefore, List.cons_append, List.cons_append, lowerAfter, lowerAfter, hv, hw,
      nextIsCased_append_congr h u]
    exact ⟨_, (List.append_assoc ..).symm, (List.append_assoc ..).symm⟩

theorem lower_append_slash (u v : Text) : lower (u ++ '/' :: v) = lower u ++ '/' :: lower v := by
  have hslash : ∀ s, nextIsCased ('/' :: s) = nextIsCased [] := fun s => by
    have hclasses : inRanges caseIgnorableRanges '/' = false ∧ inRanges casedRanges '/' = false := by
      decide +kernel
    rw [nextIsCased_cons, hclasses.1, hclasses.2]
    rfl
  obtain ⟨small, hv, hu⟩ := lowerAfter_append (hslash v) [] u
  have hu : lower u = small := by simpa [lower, lowerAfter] using hu
  have hrest : lowerAfter (u.reverse ++ []) ('/' :: v) = '/' :: lower v := by
    rw [lowerAfter, lowerAfter_congr (hslash _)]
    rfl
  rw [hu, ← hrest]
  exact hv

theorem lower_append_endings {v w : Text} (h : nextIsCased v = nextIsCased w)
    (hv : ∀ c ∈ v, IsSmall c) (hw : ∀ c ∈ w, IsSmall c) (u : Text) :
    ∃ small, lower (u ++ v) = small ++ v ∧ lower (u ++ w) = small ++ w := by
  obtain ⟨small, huv, huw⟩ := lowerAfter_append h [] u
  rw [lowerAfter_of_forall_isSmall hv] at huv
  rw [lowerAfter_of_forall_isSmall hw] at huw
  exact ⟨small, huv, huw⟩

end GenScope.Text
