import GenScope.Proofs.Cpp.ReturnType

/-!
# What follows a line

How far the searches of a text look ahead. An identifier, a parameter list and a type end on their
line, so that what follows the line matters only where a body or a call may begin with it
(`at?_append_newline`, `typeAtLine?_append_newline`). A definition that stands in whole lines is found
whatever follows them (`find?_append_of_eq_some`).
-/

namespace GenScope.Cpp

open Text (isBlank isWordChar isIdentChar IsWholeLines)

variable {lead s t : Text}

/-! ### Call shapes -/

theorem callHead?_append_of_eq_some {identifier rest : Text} (h : callHead? lead s = some (identifier, rest))
    (t : Text) : callHead? lead (s ++ t) = some (identifier, rest ++ t) := by
  obtain ⟨name, rfl, hne, hname, rfl⟩ := of_callHead?_eq_some h
  have hcall : callHead? lead (lead ++ (name ++ '(' :: (rest ++ t))) = some (lead ++ name, rest ++ t) :=
    callHead?_append hne hname
  simpa using hcall

theorem callHead?_append_newline (hlead : '\n' ∉ lead) (s t : Text) :
    callHead? lead (s ++ '\n' :: t) = (callHead? lead s).map fun x => (x.1, x.2 ++ '\n' :: t) := by
  cases hs : callHead? lead s with
  | some x => exact callHead?_append_of_eq_some hs _
  | none =>
    cases hst : callHead? lead (s ++ '\n' :: t) with
    | none => rfl
    | some x =>
      obtain ⟨name, hident, hne, hname, heq⟩ := of_callHead?_eq_some hst
      have hline : '\n' ∉ lead ++ name ++ ['('] := by
        have : '\n' ∉ name := fun hc => absurd (hname _ hc) (by decide)
        simp [hlead, this]
      obtain ⟨w, rfl, -⟩ := Text.append_eq_append_cons (s := x.2) (v := s) (t := t) hline
        (by rw [heq, hident]; simp)
      have hcall : callHead? lead (lead ++ (name ++ '(' :: w)) = some (lead ++ name, w) := callHead?_append hne hname
      rw [List.append_assoc, List.append_assoc, List.singleton_append, hcall] at hs
      cases hs

/-! ### Bodies -/

theorem opensBody_append_iff : opensBody (s ++ t) = true ↔
    opensBody s = true ∨ ∃ gap rest, t = gap ++ '{' :: rest ∧ BodyGap (s ++ gap) := by
  simp only [opensBody_iff]
  constructor
  · rintro ⟨gap, rest, hgap, h⟩
    rcases List.append_eq_append_iff.1 h with ⟨w, rfl, rfl⟩ | ⟨w, rfl, hw⟩
    · exact .inr ⟨w, rest, rfl, hgap⟩
    · cases w with
      | nil => exact .inr ⟨[], rest, by simpa using hw.symm, by simpa using hgap⟩
      | cons c w =>
        obtain ⟨rfl, -⟩ := List.cons.inj hw
        exact .inl ⟨gap, w, hgap, rfl⟩
  · rintro (⟨gap, rest, hgap, rfl⟩ | ⟨gap, rest, rfl, hgap⟩)
    · exact ⟨gap, rest ++ t, hgap, by simp⟩
    · exact ⟨s ++ gap, rest, hgap, by simp⟩

theorem BodyGap.isBlank_or_mem {gap : Text} (h : BodyGap gap) :
    ∀ c ∈ gap, isBlank c = true ∨ c ∈ ("noexcept" : Text) := by
  cases h with
  | blank hb => simp [hb]
  | noexcept hb _ hall =>
    intro c hc
    rcases List.mem_cons.1 hc with rfl | hc
    · exact .inl hb
    · rcases List.mem_append.1 hc with hc | hc
      · exact .inr hc
      · exact .inl (hall c hc)

/-! ### Parameter lists -/

theorem parameterText?_isSome {params tail : Text} (hl : '\n' ∉ params) (ht : opensBody tail = true) :
    (parameterText? (params ++ ')' :: tail)).isSome = true := by
  induction params with
  | nil => simp [parameterText?, ht]
  | cons c params ih =>
    obtain ⟨hc, hl⟩ := not_or.1 (mt List.mem_cons.2 hl)
    rw [List.cons_append, parameterText?]
    split
    · rfl
    · simp [Ne.symm hc, ih hl]

theorem parameterText?_append_of_eq_some {params : Text} (h : parameterText? s = some params) (t : Text) :
    parameterText? (s ++ t) = some params := by
  induction s generalizing params with
  | nil => cases h
  | cons c s ih =>
    rw [parameterText?] at h
    rw [List.cons_append, parameterText?]
    split at h
    · rename_i hc
      rw [Bool.and_eq_true] at hc
      rw [hc.1, opensBody_append_iff.2 (.inl hc.2)]
      exact h
    · rename_i hc
      split at h
      · cases h
      · rename_i hline
        obtain ⟨rest, hrest, rfl⟩ := Option.map_eq_some_iff.1 h
        obtain ⟨-, tail, rfl, -⟩ := of_parameterText?_eq_some hrest
        -- a bracket stands in the way of a body that would begin behind this one
        have hno : (c == ')' && opensBody (rest ++ ')' :: tail ++ t)) = false := by
          rw [Bool.eq_false_iff]
          intro hopen
          rw [Bool.and_eq_true, opensBody_append_iff] at hopen
          obtain ⟨hbracket, hbody | ⟨gap, _, -, hgap⟩⟩ := hopen
          · exact hc (by rw [hbracket, hbody]; rfl)
          · exact hgap.not_mem_paren (by simp)
        rw [hno, if_neg hline, ih hrest]
        rfl

/-- What follows the line of a parameter list matters only where it can open the body. -/
theorem parameterText?_append_newline {t' : Text}
    (h : ∀ x u, s = x ++ ')' :: u → opensBody (u ++ '\n' :: t) = opensBody (u ++ '\n' :: t')) :
    parameterText? (s ++ '\n' :: t) = parameterText? (s ++ '\n' :: t') := by
  induction s with
  | nil => rfl
  | cons c s ih =>
    rw [List.cons_append, List.cons_append, parameterText?, parameterText?,
      ih fun x u hs => h (c :: x) u (by rw [hs]; rfl)]
    by_cases hc : c = ')'
    · rw [h [] s (by rw [hc]; rfl)]
    · simp [hc]

/-! ### Definitions -/

namespace Declaration

variable {d : Declaration}

theorem at?_isSome {name params tail : Text} (hne : name ≠ []) (hname : ∀ c ∈ name, isIdentChar c = true)
    (hl : '\n' ∉ params) (ht : opensBody tail = true) :
    (at? lead (lead ++ name ++ '(' :: (params ++ ')' :: tail))).isSome = true := by
  rw [List.append_assoc, at?, callHead?_append hne hname]
  simp [parameterText?_isSome hl ht]

theorem at?_append_of_eq_some (h : at? lead s = some d) (t : Text) :
    at? lead (s ++ t) = some { d with rest := d.rest ++ t } := by
  obtain ⟨rest, hcall, hparams, hbefore, rfl⟩ := of_at?_eq_some h
  rw [at?, callHead?_append_of_eq_some hcall]
  simp [parameterText?_append_of_eq_some hparams, hbefore]

theorem at?_append_newline {t' : Text} (hlead : '\n' ∉ lead)
    (h : ∀ x u, s = x ++ ')' :: u → opensBody (u ++ '\n' :: t) = opensBody (u ++ '\n' :: t')) :
    at? lead (s ++ '\n' :: t') = (at? lead (s ++ '\n' :: t)).map fun d => { d with rest := s ++ '\n' :: t' } := by
  rw [at?, at?, callHead?_append_newline hlead, callHead?_append_newline hlead]
  cases hcall : callHead? lead s with
  | none => rfl
  | some x =>
    obtain ⟨name, -, -, -, rfl⟩ := of_callHead?_eq_some hcall
    have hparams := parameterText?_append_newline (s := x.2) fun y u hy =>
      h (x.1 ++ '(' :: y) u (by rw [hy]; simp)
    simp [hparams, Function.comp_def]

theorem of_find?_eq_some (h : find? lead s = some d) :
    s = d.before ++ d.rest ∧ d.before ≠ [] ∧ at? lead d.rest = some { d with before := [] } := by
  refine ⟨(before_append_rest h).symm, ?_⟩
  induction s generalizing d with
  | nil => cases h
  | cons b s ih =>
    rw [find?] at h
    obtain ⟨e, he, rfl⟩ := Option.map_eq_some_iff.1 h
    refine ⟨by simp, ?_⟩
    rcases Option.or_eq_some_iff.1 he with he | ⟨-, he⟩
    · split at he
      · obtain ⟨-, -, -, hbefore, rfl⟩ := of_at?_eq_some he
        rw [he, ← hbefore]
      · cases he
    · exact (ih he).2

/-- If what follows whole lines completes a definition that begins them, the bracket that ends the
parameters stands in the lines, with no brace behind it there. -/
theorem begun_of_at?_append (hlead : '\n' ∉ lead) (hw : IsWholeLines s) (hs : s ≠ [])
    (h : at? lead (s ++ t) = some d) : (at? lead s).isSome = true ∨
      ∃ name params gap, name ≠ [] ∧ (∀ c ∈ name, isIdentChar c = true) ∧ '\n' ∉ params ∧
        s = lead ++ name ++ '(' :: (params ++ ')' :: gap) ∧ '{' ∉ gap := by
  obtain ⟨name, tail, hident, hne, hname, hl, heq, htail⟩ := shape_of_at?_eq_some h
  obtain ⟨u, rfl⟩ := hw.eq_append hs
  have hline : '\n' ∉ lead ++ name ++ '(' :: (d.parameters ++ [')']) := by
    have : '\n' ∉ name := fun hc => absurd (hname _ hc) (by decide)
    simp [hlead, this, hl]
  obtain ⟨gap, rfl, rfl⟩ := Text.append_eq_append_cons (s := tail) (v := u) (t := t) hline
    (by rw [hident] at heq; simpa using heq.symm)
  rw [← List.singleton_append, ← List.append_assoc, opensBody_append_iff] at htail
  have hcut : lead ++ name ++ '(' :: (d.parameters ++ [')']) ++ gap ++ ['\n'] =
      lead ++ name ++ '(' :: (d.parameters ++ ')' :: (gap ++ ['\n'])) := by simp
  rw [hcut]
  rcases htail with hopen | ⟨gap', -, -, hgap⟩
  · exact .inl (at?_isSome hne hname hl hopen)
  · refine .inr ⟨name, d.parameters, gap ++ ['\n'], hne, hname, hl, rfl, fun hbrace => ?_⟩
    rcases hgap.isBlank_or_mem '{' (List.mem_append_left _ hbrace) with hb | hb <;> exact absurd hb (by decide)

theorem at?_isSome_of_body {name params gap before tail : Text} (hbracket : ')' ∉ lead) (hne : name ≠ [])
    (hname : ∀ c ∈ name, isIdentChar c = true) (hl : '\n' ∉ params) (hgap : '{' ∉ gap) (hopen : opensBody tail = true)
    (heq : lead ++ name ++ '(' :: (params ++ ')' :: gap) = before ++ ')' :: tail) :
    (at? lead (before ++ ')' :: tail)).isSome = true := by
  obtain ⟨bodyGap, rest, -, htail⟩ := opensBody_iff.1 hopen
  have hmem : '{' ∈ tail := by rw [htail]; simp
  have hident : ')' ∉ lead ++ name ++ ['('] := by
    have : ')' ∉ name := fun hc => absurd (hname _ hc) (by decide)
    simp [hbracket, this]
  obtain ⟨front, rfl, hparams⟩ := Text.append_eq_append_cons (s := params ++ ')' :: gap) hident (by simpa using heq)
  -- the brace is not in the gap, so that this bracket stands in the parameters or ends them
  rcases List.append_eq_append_iff.1 hparams with ⟨w, rfl, hw⟩ | ⟨w, rfl, -⟩
  · cases w with
    | nil =>
      obtain ⟨-, rfl⟩ := List.cons.inj hw
      exact absurd hmem hgap
    | cons c w =>
      obtain ⟨-, rfl⟩ := List.cons.inj hw
      exact absurd (by simp [hmem]) hgap
  · have hsome : (at? lead (lead ++ name ++ '(' :: (front ++ ')' :: tail))).isSome = true :=
      at?_isSome hne hname (fun hm => hl (List.mem_append_left _ hm)) hopen
    simpa using hsome

theorem at?_append_eq_none (hlead : '\n' ∉ lead) (hbracket : ')' ∉ lead) (hw : IsWholeLines s)
    (hnone : at? lead s = none) (hfind : find? lead s = some d) (t : Text) : at? lead (s ++ t) = none := by
  obtain ⟨hs, hbefore, hd⟩ := of_find?_eq_some hfind
  obtain ⟨-, tail, -, -, -, -, hrest, htail⟩ := shape_of_at?_eq_some hd
  have hne : s ≠ [] := by rw [hs]; simp [hbefore]
  rw [Option.eq_none_iff_forall_ne_some]
  intro e he
  have hno : (at? lead s).isSome = false := by rw [hnone]; rfl
  rcases begun_of_at?_append hlead hw hne he with hsome | ⟨name, params, gap, hnne, hname, hl, heq, hgap⟩
  · rw [hno] at hsome
    cases hsome
  · have hbody : s = (d.before ++ (d.identifier ++ '(' :: d.parameters)) ++ ')' :: tail := by
      rw [hs, hrest]; simp
    have hsome := at?_isSome_of_body hbracket hnne hname hl hgap htail (heq.symm.trans hbody)
    rw [← hbody, hno] at hsome
    cases hsome

end Declaration

theorem Declaration.find?_append_of_eq_some {d : Declaration} (hlead : '\n' ∉ lead) (hbracket : ')' ∉ lead)
    (hw : IsWholeLines s) (h : find? lead s = some d) (t : Text) :
    find? lead (s ++ t) = some { d with rest := d.rest ++ t } := by
  induction s generalizing d with
  | nil => cases h
  | cons b s ih =>
    have hws : IsWholeLines s := hw.of_append (s := [b])
    rw [find?] at h
    rw [List.cons_append, find?]
    obtain ⟨e, he, rfl⟩ := Option.map_eq_some_iff.1 h
    rcases Option.or_eq_some_iff.1 he with he | ⟨hnone, he⟩
    · split at he
      · rename_i hb
        rw [if_pos hb, at?_append_of_eq_some he]
        rfl
      · cases he
    · have hhere : (if isBlank b then at? lead (s ++ t) else none) = none := by
        split
        · rename_i hb
          rw [if_pos hb] at hnone
          exact at?_append_eq_none hlead hbracket hws hnone he t
        · rfl
      rw [hhere, ih hws he]
      rfl

/-! ### Types -/

theorem startsCall_append_newline {t' : Text} (h : ¬ IsCall ('\n' :: t)) (h' : ¬ IsCall ('\n' :: t')) (s : Text) :
    startsCall (s ++ '\n' :: t) = startsCall (s ++ '\n' :: t') := by
  cases s with
  | nil =>
    rw [List.nil_append, List.nil_append, Bool.eq_iff_iff, startsCall_iff, startsCall_iff]
    exact iff_of_false h h'
  | cons b s =>
    have hlead : '\n' ∉ functionLead := by decide
    simp [startsCall, callHead?_append_newline hlead]

theorem typeText?_append_newline {t' : Text} (h : ¬ IsCall ('\n' :: t)) (h' : ¬ IsCall ('\n' :: t')) (s : Text) :
    typeText? (s ++ '\n' :: t) = typeText? (s ++ '\n' :: t') := by
  induction s with
  | nil => rfl
  | cons c s ih =>
    rw [List.cons_append, List.cons_append, typeText?, typeText?, startsCall_append_newline h h', ih]

theorem typeAtLine?_append_newline {t' : Text} (h : ¬ IsCall ('\n' :: t)) (h' : ¬ IsCall ('\n' :: t')) (s : Text) :
    typeAtLine? (s ++ '\n' :: t) = typeAtLine? (s ++ '\n' :: t') := by
  cases s with
  | nil => rfl
  | cons c s => rw [List.cons_append, List.cons_append, typeAtLine?, typeAtLine?, typeText?_append_newline h h']

end GenScope.Cpp
