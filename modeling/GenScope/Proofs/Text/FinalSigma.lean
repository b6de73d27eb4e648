import GenScope.Proofs.Text.Lowercase

/-!
# Capital sigmas in context

A text that stands between two others becomes what it becomes alone, unless one of its capital sigmas is at
the end of a word in one case and not in the other (`lowerWithin_eq_iff`). Case looks through full stops,
apostrophes and the like, so that only the sigmas near an end of the text can turn: the last ones lose the
final form if a letter follows the text, and the first ones gain it if a letter comes before (`finalLost_iff`,
`finalGained_iff`). A text of which some sigma can turn is not found between all other texts
(`lower_infix_iff`).
-/

namespace GenScope.Text

variable {s u v before after before' after' : Text} {c : Char} {final : Bool}

/-! ### Looking through -/

/-- The text holds nothing but characters that case looks through. -/
def looksThrough (s : Text) : Bool := s.all (inRanges caseIgnorableRanges)

theorem nextIsCased_append (u v : Text) :
    nextIsCased (u ++ v) = if looksThrough u then nextIsCased v else nextIsCased u := by
  induction u with
  | nil => rfl
  | cons c u ih =>
    rw [List.cons_append, nextIsCased_cons, nextIsCased_cons, ih]
    by_cases hc : inRanges caseIgnorableRanges c = true
    · simp [looksThrough, hc]
    · simp [looksThrough, hc]

theorem nextIsCased_of_looksThrough (h : looksThrough s = true) : nextIsCased s = false := by
  have happend := nextIsCased_append s []
  rw [if_pos h, List.append_nil] at happend
  exact happend

/-! ### The form of one sigma -/

/-- A capital sigma takes the final form between these texts; `before` has its nearest character first. -/
def isFinalSigma (before after : Text) : Bool := nextIsCased before && !nextIsCased after

theorem finalLost_iff : isFinalSigma u v = true ∧ isFinalSigma (u ++ before) (v ++ after) = false ↔
    nextIsCased u = true ∧ looksThrough v = true ∧ nextIsCased after = true := by
  have hu : looksThrough u = true → nextIsCased u = false := nextIsCased_of_looksThrough
  have hv : looksThrough v = true → nextIsCased v = false := nextIsCased_of_looksThrough
  simp only [isFinalSigma, nextIsCased_append]
  by_cases hthrough : looksThrough v = true
  · cases hcased : nextIsCased u <;> simp_all
  · cases hcased : nextIsCased u <;> simp_all

theorem finalGained_iff : isFinalSigma u v = false ∧ isFinalSigma (u ++ before) (v ++ after) = true ↔
    looksThrough u = true ∧ nextIsCased before = true ∧ nextIsCased (v ++ after) = false := by
  have hu : looksThrough u = true → nextIsCased u = false := nextIsCased_of_looksThrough
  have hv : looksThrough v = true → nextIsCased v = false := nextIsCased_of_looksThrough
  simp only [isFinalSigma, nextIsCased_append]
  by_cases hthrough : looksThrough u = true
  · by_cases hafter : looksThrough v = true <;> simp_all
  · by_cases hafter : looksThrough v = true <;> simp_all

/-- The small sigma that ends a word, or the one within a word. -/
def sigmaForm (final : Bool) : Char := if final then 'ς' else 'σ'

theorem sigmaForm_inj {a b : Bool} : sigmaForm a = sigmaForm b ↔ a = b := by
  revert a b
  decide

/-! ### Text between texts -/

/-- What a text becomes between two others. -/
def lowerWithin (before : Text) : (s after : Text) → Text
  | [], _ => []
  | c :: s, after =>
    let small := if c = 'Σ' then [sigmaForm (isFinalSigma before (s ++ after))] else lowerChar c
    small ++ lowerWithin (c :: before) s after

theorem lowerAfter_eq_append (before s after : Text) :
    lowerAfter before (s ++ after) = lowerWithin before s after ++ lowerAfter (s.reverse ++ before) after := by
  induction s generalizing before with
  | nil => rfl
  | cons c s ih =>
    rw [List.cons_append, lowerAfter, ih, lowerWithin, List.append_assoc, List.reverse_cons, List.append_assoc]
    rfl

theorem lower_eq_lowerWithin (s : Text) : lower s = lowerWithin [] s [] := by
  have happend := lowerAfter_eq_append [] s []
  rw [List.append_nil, lowerAfter, List.append_nil] at happend
  exact happend

theorem lower_append_append (before s after : Text) : lower (before ++ s ++ after) =
    lowerWithin [] before (s ++ after) ++ lowerWithin before.reverse s after ++
      lowerAfter (s.reverse ++ before.reverse) after := by
  rw [lower, List.append_assoc, lowerAfter_eq_append, List.append_nil, lowerAfter_eq_append, List.append_assoc]

/-- The sigmas of a text are its first character, if that is one, and those of the rest. -/
theorem forall_sigma_cons {P : Text → Text → Prop} : (∀ u v, c :: s = u ++ 'Σ' :: v → P u v) ↔
    (c = 'Σ' → P [] s) ∧ ∀ u v, s = u ++ 'Σ' :: v → P (c :: u) v := by
  constructor
  · exact fun h => ⟨fun hc => h [] s (by rw [hc]; rfl), fun u v hs => h (c :: u) v (by rw [hs]; rfl)⟩
  · rintro ⟨hfirst, hrest⟩ u v h
    cases u with
    | nil =>
      obtain ⟨hc, rfl⟩ := List.cons_eq_cons.1 h
      exact hfirst hc
    | cons d u =>
      obtain ⟨rfl, hs⟩ := List.cons_eq_cons.1 h
      exact hrest u v hs

theorem length_lowerWithin (before after before' after' s : Text) :
    (lowerWithin before s after).length = (lowerWithin before' s after').length := by
  induction s generalizing before before' with
  | nil => rfl
  | cons c s ih =>
    rw [lowerWithin, lowerWithin, List.length_append, List.length_append, ih (c :: before) (c :: before')]
    by_cases hc : c = 'Σ' <;> simp [hc]

/-- A text becomes the same between two pairs of texts if and only if every sigma has the same form there. -/
theorem lowerWithin_eq_iff : lowerWithin before s after = lowerWithin before' s after' ↔
    ∀ u v, s = u ++ 'Σ' :: v →
      isFinalSigma (u.reverse ++ before) (v ++ after) = isFinalSigma (u.reverse ++ before') (v ++ after') := by
  induction s generalizing before before' with
  | nil => simp [lowerWithin]
  | cons c s ih =>
    rw [lowerWithin, lowerWithin, forall_sigma_cons]
    simp only [List.reverse_cons, List.append_assoc, List.singleton_append, ← ih]
    by_cases hc : c = 'Σ'
    · simp [hc, sigmaForm_inj]
    · simp [hc]

/-! ### Text that is found -/

/-- A sigma of the text has another form between the two texts than in the text alone. -/
def SigmaTurns (before s after : Text) : Prop :=
  ∃ u v, s = u ++ 'Σ' :: v ∧
    isFinalSigma u.reverse v ≠ isFinalSigma (u.reverse ++ before.reverse) (v ++ after)

theorem not_sigmaTurns_iff : ¬ SigmaTurns before s after ↔ lower s = lowerWithin before.reverse s after := by
  rw [lower_eq_lowerWithin, lowerWithin_eq_iff]
  simp [SigmaTurns]

theorem lower_infix_of_not_sigmaTurns (h : ¬ SigmaTurns before s after) :
    lower s <:+: lower (before ++ s ++ after) := by
  rw [not_sigmaTurns_iff.1 h, lower_append_append]
  exact List.infix_append _ _ _

theorem lower_prefix_iff : lower s <+: lower (s ++ after) ↔ ¬ SigmaTurns [] s after := by
  have happend : lower (s ++ after) = lowerWithin [] s after ++ lowerAfter (s.reverse ++ []) after :=
    lowerAfter_eq_append [] s after
  rw [not_sigmaTurns_iff, happend, lower_eq_lowerWithin]
  constructor
  · intro h
    have hlength := length_lowerWithin [] [] [] after s
    exact (List.prefix_of_prefix_length_le h (List.prefix_append ..) hlength.le).eq_of_length hlength
  · intro h
    rw [List.reverse_nil] at h
    rw [← h]
    exact List.prefix_append _ _

/-- The text ends in a sigma behind a letter, but for characters that case looks through. -/
def EndsInSigma (s : Text) : Prop :=
  ∃ u v, s = u ++ 'Σ' :: v ∧ looksThrough v = true ∧ nextIsCased u.reverse = true

/-- The text starts with a sigma that no letter follows, but for characters that case looks through. -/
def StartsWithSigma (s : Text) : Prop :=
  ∃ u v, s = u ++ 'Σ' :: v ∧ looksThrough u = true ∧ nextIsCased v = false

theorem SigmaTurns.cases (h : SigmaTurns before s after) :
    EndsInSigma s ∨ (StartsWithSigma s ∧ nextIsCased before.reverse = true) := by
  obtain ⟨u, v, hs, hturns⟩ := h
  cases halone : isFinalSigma u.reverse v with
  | true =>
    have hwithin : isFinalSigma (u.reverse ++ before.reverse) (v ++ after) = false := by simp_all
    obtain ⟨hu, hv, -⟩ := finalLost_iff.1 ⟨halone, hwithin⟩
    exact .inl ⟨u, v, hs, hv, hu⟩
  | false =>
    have hwithin : isFinalSigma (u.reverse ++ before.reverse) (v ++ after) = true := by simp_all
    obtain ⟨hu, hbefore, hv⟩ := finalGained_iff.1 ⟨halone, hwithin⟩
    have hu : looksThrough u = true := by rwa [looksThrough, List.all_reverse] at hu
    refine .inr ⟨⟨u, v, hs, hu, ?_⟩, hbefore⟩
    by_cases hthrough : looksThrough v = true
    · exact nextIsCased_of_looksThrough hthrough
    · rwa [nextIsCased_append, if_neg hthrough] at hv

theorem EndsInSigma.turns (h : EndsInSigma s) (hafter : nextIsCased after = true) : SigmaTurns [] s after := by
  obtain ⟨u, v, hs, hv, hu⟩ := h
  obtain ⟨halone, hwithin⟩ := finalLost_iff.2 ⟨hu, hv, hafter⟩
  exact ⟨u, v, hs, fun heq => by rw [halone, List.reverse_nil, hwithin] at heq; cases heq⟩

theorem StartsWithSigma.turns (h : StartsWithSigma s) (hbefore : nextIsCased before.reverse = true) :
    SigmaTurns before s [] := by
  obtain ⟨u, v, hs, hu, hv⟩ := h
  have hu : looksThrough u.reverse = true := by rwa [looksThrough, List.all_reverse]
  obtain ⟨halone, hwithin⟩ := finalGained_iff.2 ⟨hu, hbefore, (List.append_nil v).symm ▸ hv⟩
  exact ⟨u, v, hs, fun heq => by rw [halone, hwithin] at heq; cases heq⟩

/-- Where no sigma takes a form that it does not have alone, there are not more of that form, and as many only
if the text becomes the same. -/
theorem count_lowerWithin (h : ∀ u v, s = u ++ 'Σ' :: v →
      isFinalSigma (u.reverse ++ before') (v ++ after') = final →
      isFinalSigma (u.reverse ++ before) (v ++ after) = final) :
    (lowerWithin before' s after').count (sigmaForm final) ≤ (lowerWithin before s after).count (sigmaForm final) ∧
    ((lowerWithin before s after).count (sigmaForm final) ≤ (lowerWithin before' s after').count (sigmaForm final) →
      lowerWithin before s after = lowerWithin before' s after') := by
  induction s generalizing before before' with
  | nil => exact ⟨Nat.le_refl _, fun _ => rfl⟩
  | cons c s ih =>
    obtain ⟨hfirst, hrest⟩ := forall_sigma_cons.1 h
    simp only [List.reverse_cons, List.append_assoc, List.singleton_append] at hrest
    obtain ⟨hle, heq⟩ := ih hrest
    rw [lowerWithin, lowerWithin, List.count_append, List.count_append]
    by_cases hc : c = 'Σ'
    · have hfirst := hfirst hc
      simp only [List.reverse_nil, List.nil_append] at hfirst
      simp only [if_pos hc, List.count_singleton, beq_iff_eq, sigmaForm_inj]
      by_cases hwithin : isFinalSigma before' (s ++ after') = final
      · rw [hwithin, hfirst hwithin]
        exact ⟨by omega, fun hcount => by rw [heq (by omega)]⟩
      · by_cases halone : isFinalSigma before (s ++ after) = final
        · rw [if_neg hwithin, if_pos halone]
          exact ⟨by omega, fun hcount => by omega⟩
        · have hsame : isFinalSigma before (s ++ after) = isFinalSigma before' (s ++ after') := by
            cases final <;> simp_all
          rw [hsame]
          exact ⟨by omega, fun hcount => by rw [heq (by omega)]⟩
    · simp only [if_neg hc]
      exact ⟨by omega, fun hcount => by rw [heq (by omega)]⟩

theorem not_lower_infix (final : Bool) (hturns : SigmaTurns before s after)
    (hforms : ∀ u v, s = u ++ 'Σ' :: v → isFinalSigma (u.reverse ++ before.reverse) (v ++ after) = final →
      isFinalSigma u.reverse v = final)
    (hbefore : sigmaForm final ∉ lowerWithin [] before (s ++ after))
    (hafter : sigmaForm final ∉ lowerAfter (s.reverse ++ before.reverse) after) :
    ¬ lower s <:+: lower (before ++ s ++ after) := by
  intro hinfix
  have hcount := hinfix.sublist.count_le (sigmaForm final)
  rw [lower_append_append, List.count_append, List.count_append, List.count_eq_zero_of_not_mem hbefore,
    List.count_eq_zero_of_not_mem hafter, lower_eq_lowerWithin] at hcount
  have hforms : ∀ u v, s = u ++ 'Σ' :: v →
      isFinalSigma (u.reverse ++ before.reverse) (v ++ after) = final →
      isFinalSigma (u.reverse ++ []) (v ++ []) = final := by
    simpa only [List.append_nil] using hforms
  refine not_sigmaTurns_iff.2 ?_ hturns
  rw [lower_eq_lowerWithin]
  exact (count_lowerWithin hforms).2 (by omega)

theorem EndsInSigma.not_lower_infix (h : EndsInSigma s) : ¬ lower s <:+: lower (s ++ ['a']) := by
  have hcased : nextIsCased ['a'] = true := by decide +kernel
  refine Text.not_lower_infix true (h.turns hcased) ?_ (by simp [lowerWithin]) ?_
  · intro u v _ hwithin
    by_contra halone
    obtain ⟨-, hbefore, -⟩ := finalGained_iff.1 ⟨Bool.eq_false_iff.2 halone, hwithin⟩
    cases hbefore
  · rw [lowerAfter_of_forall_isSmall (List.forall_mem_singleton.2 (by decide +kernel))]
    decide

theorem StartsWithSigma.not_lower_infix (h : StartsWithSigma s) : ¬ lower s <:+: lower (['a'] ++ s) := by
  have hcased : nextIsCased ['a'].reverse = true := by decide +kernel
  have hnone : sigmaForm false ∉ lowerAfter (s.reverse ++ ['a'].reverse) [] := by simp [lowerAfter]
  have hfound := Text.not_lower_infix false (h.turns hcased) ?_ ?_ hnone
  · rwa [List.append_nil] at hfound
  · intro u v _ hwithin
    by_contra halone
    obtain ⟨-, -, hafter⟩ := finalLost_iff.1 ⟨Bool.not_eq_false _ ▸ halone, hwithin⟩
    cases hafter
  · have hsmall : lowerWithin [] ['a'] (s ++ []) = ['a'] := by
      rw [lowerWithin, lowerWithin, if_neg (by decide)]
      rfl
    rw [hsmall]
    decide

theorem lower_infix_iff : (∀ before after, lower s <:+: lower (before ++ s ++ after)) ↔
    ¬ EndsInSigma s ∧ ¬ StartsWithSigma s := by
  constructor
  · intro h
    refine ⟨fun hends => hends.not_lower_infix (h [] ['a']), fun hstarts => ?_⟩
    exact hstarts.not_lower_infix (List.append_nil (['a'] ++ s) ▸ h ['a'] [])
  · rintro ⟨hends, hstarts⟩ before after
    refine lower_infix_of_not_sigmaTurns fun hturns => ?_
    rcases hturns.cases with h | ⟨h, -⟩
    · exact hends h
    · exact hstarts h

theorem lower_prefix_all_iff : (∀ after, lower s <+: lower (s ++ after)) ↔ ¬ EndsInSigma s := by
  simp only [lower_prefix_iff]
  constructor
  · exact fun h hends => h ['a'] (hends.turns (by decide +kernel))
  · rintro hends after hturns
    rcases hturns.cases with h | ⟨-, h⟩
    · exact hends h
    · cases h

end GenScope.Text
