import GenScope.Cpp.Declaration
import GenScope.Proofs.Text.CharClass
import GenScope.Proofs.Text.Fragment

/-!
# The first definition of a text

What the shape searches of `Cpp.Declaration` find. `opensBody_iff` says how a body is opened,
`at?_call` that a call shape before a body is read back, and `find?_append` that what stands before
the first definition only moves it. Whole lines without an opening brace hold no definition, except
that the last of them can be a declaration whose body the next line opens
(`closesDeclaration_of_at?`).
-/

namespace GenScope.Cpp

open Text (isBlank isWordChar isIdentChar)

/-! ### Opening a body -/

/-- What may stand between a closing bracket and the brace of a body: white space, or `noexcept`
with white space around it. -/
inductive BodyGap : Text → Prop
  | blank {b : Char} : isBlank b = true → BodyGap [b]
  | noexcept {b : Char} {gap : Text} : isBlank b = true → gap ≠ [] → (∀ c ∈ gap, isBlank c = true) →
      BodyGap (b :: ("noexcept" ++ gap))

theorem opensBody_iff {s : Text} :
    opensBody s = true ↔ ∃ gap rest, BodyGap gap ∧ s = gap ++ '{' :: rest := by
  constructor
  · intro h
    cases s with
    | nil => cases h
    | cons b s =>
      rw [opensBody, Bool.and_eq_true] at h
      obtain ⟨hb, h⟩ := h
      split at h
      · rename_i t ht
        obtain rfl := Text.after?_eq_some_iff.1 ht
        rw [Bool.and_eq_true] at h
        obtain ⟨hhead, hbrace⟩ := h
        obtain ⟨rest, hrest⟩ := List.head?_eq_some_iff.1 (beq_iff_eq.1 hbrace)
        refine ⟨b :: ("noexcept" ++ t.takeWhile isBlank), rest, .noexcept hb ?_ ?_, ?_⟩
        · cases t with
          | nil => simp at hhead
          | cons c t => simp_all
        · exact fun c hc => List.mem_takeWhile_imp hc
        · rw [List.cons_append, List.append_assoc, ← hrest, List.takeWhile_append_dropWhile]
      · obtain ⟨rest, rfl⟩ := List.head?_eq_some_iff.1 (beq_iff_eq.1 h)
        exact ⟨[b], rest, .blank hb, rfl⟩
  · rintro ⟨gap, rest, hgap, rfl⟩
    cases hgap with
    | blank hb => simp [opensBody, hb, Text.after?, Text.startsWith]
    | @noexcept b gap hb hne hall =>
      rw [List.cons_append, List.append_assoc, opensBody, Text.after?_append, hb]
      cases gap with
      | nil => exact absurd rfl hne
      | cons c gap =>
        have hdrop : (gap ++ '{' :: rest).dropWhile isBlank = '{' :: rest := by
          rw [List.dropWhile_append_of_pos fun d hd => hall d (by simp [hd])]; rfl
        simp [hdrop, hall c (by simp)]

theorem BodyGap.not_mem_paren {gap : Text} (h : BodyGap gap) : ')' ∉ gap := by
  have hp : ∀ c : Char, isBlank c = true → ')' ≠ c := by rintro _ hc rfl; revert hc; decide
  cases h with
  | blank hb => simpa using hp _ hb
  | noexcept hb _ hall =>
    simp only [List.mem_cons, List.mem_append, not_or]
    exact ⟨hp _ hb, by decide, fun hc => hp _ (hall _ hc) rfl⟩

/-! ### The parameter text -/

theorem parameterText?_append {params tail : Text} (hl : '\n' ∉ params) (hb : '{' ∉ params)
    (ht : opensBody tail = true) : parameterText? (params ++ ')' :: tail) = some params := by
  induction params with
  | nil => simp [parameterText?, ht]
  | cons c params ih =>
    obtain ⟨hcl, hl⟩ := not_or.1 (mt List.mem_cons.2 hl)
    obtain ⟨hcb, hb⟩ := not_or.1 (mt List.mem_cons.2 hb)
    -- a body after an inner bracket would have to reach over the closing one
    have hno : opensBody (params ++ ')' :: tail) = false := by
      rw [Bool.eq_false_iff]
      intro h
      obtain ⟨gap, rest, hgap, hs⟩ := opensBody_iff.1 h
      obtain ⟨w, rfl, hw⟩ := Text.append_eq_append_cons hb hs
      cases w with
      | nil => exact absurd (List.cons.inj hw).1 (by decide)
      | cons d w =>
        obtain ⟨rfl, -⟩ := List.cons.inj hw
        exact hgap.not_mem_paren (by simp)
    simp [parameterText?, hno, Ne.symm hcl, ih hl hb]

theorem of_parameterText?_eq_some {s params : Text} (h : parameterText? s = some params) :
    '\n' ∉ params ∧ ∃ tail, s = params ++ ')' :: tail ∧ opensBody tail = true := by
  induction s generalizing params with
  | nil => cases h
  | cons c s ih =>
    rw [parameterText?] at h
    split at h
    · rename_i hc
      cases h
      simp only [Bool.and_eq_true, beq_iff_eq] at hc
      exact ⟨by simp, s, by simp [hc.1], hc.2⟩
    · split at h
      · cases h
      · rename_i hc
        obtain ⟨rest, hrest, rfl⟩ := Option.map_eq_some_iff.1 h
        obtain ⟨hl, tail, rfl, ht⟩ := ih hrest
        have hcl : '\n' ≠ c := by rintro rfl; simp at hc
        exact ⟨by simp [hcl, hl], tail, rfl, ht⟩

/-! ### Call shapes -/

theorem callHead?_append {lead name rest : Text} (hne : name ≠ [])
    (hname : ∀ c ∈ name, isIdentChar c = true) :
    callHead? lead (lead ++ (name ++ '(' :: rest)) = some (lead ++ name, rest) := by
  have htake : (name ++ '(' :: rest).takeWhile isIdentChar = name := by
    rw [List.takeWhile_append_of_pos hname]; simp [show isIdentChar '(' = false by decide]
  have hdrop : (name ++ '(' :: rest).dropWhile isIdentChar = '(' :: rest := by
    rw [List.dropWhile_append_of_pos hname]; simp [show isIdentChar '(' = false by decide]
  rw [callHead?, Text.after?_append]
  simp only [htake, hdrop]
  cases name with
  | nil => exact absurd rfl hne
  | cons c name => rfl

theorem of_callHead?_eq_some {lead s identifier rest : Text}
    (h : callHead? lead s = some (identifier, rest)) :
    ∃ name, identifier = lead ++ name ∧ name ≠ [] ∧ (∀ c ∈ name, isIdentChar c = true) ∧
      s = identifier ++ '(' :: rest := by
  unfold callHead? at h
  split at h
  · cases h
  · rename_i t ht
    obtain rfl := Text.after?_eq_some_iff.1 ht
    split at h
    · rename_i c name rest' htake hdrop
      obtain ⟨rfl, rfl⟩ := Prod.mk.inj (Option.some.inj h)
      refine ⟨c :: name, rfl, by simp, fun d hd => ?_, ?_⟩
      · rw [← htake] at hd; exact List.mem_takeWhile_imp hd
      · rw [List.append_assoc, ← hdrop, ← htake, List.takeWhile_append_dropWhile]
    · cases h

theorem callHead?_functionLead {lead s : Text} (hlead : lead = functionLead ∨ lead = forkLead) {x : Text × Text}
    (h : callHead? lead s = some x) : callHead? functionLead s = some x := by
  rcases hlead with rfl | rfl
  · exact h
  · obtain ⟨name, hident, hne, hname, rfl⟩ := of_callHead?_eq_some h
    have hfork : ∀ c ∈ ("fork$" : Text) ++ name, isIdentChar c = true := by
      intro c hc
      rcases List.mem_append.1 hc with hc | hc
      · exact List.all_eq_true.1 (by decide : ("fork$" : Text).all isIdentChar = true) c hc
      · exact hname c hc
    have hsplit : x.1 = functionLead ++ ("fork$" ++ name) := by rw [hident]; rfl
    rw [hsplit, List.append_assoc, callHead?_append (by simp) hfork, ← hsplit]

namespace Declaration

variable {lead s : Text} {d : Declaration}

theorem of_at?_eq_some (h : at? lead s = some d) :
    ∃ rest, callHead? lead s = some (d.identifier, rest) ∧ parameterText? rest = some d.parameters ∧
      d.before = [] ∧ d.rest = s := by
  unfold at? at h
  split at h
  · cases h
  · rename_i identifier rest hcall
    obtain ⟨params, hparams, rfl⟩ := Option.map_eq_some_iff.1 h
    exact ⟨rest, hcall, hparams, rfl, rfl⟩

theorem shape_of_at?_eq_some (h : at? lead s = some d) :
    ∃ name tail, d.identifier = lead ++ name ∧ name ≠ [] ∧ (∀ c ∈ name, isIdentChar c = true) ∧
      '\n' ∉ d.parameters ∧ s = d.identifier ++ '(' :: (d.parameters ++ ')' :: tail) ∧ opensBody tail = true := by
  obtain ⟨rest, hcall, hparams, -, -⟩ := of_at?_eq_some h
  obtain ⟨name, hident, hne, hname, hs⟩ := of_callHead?_eq_some hcall
  obtain ⟨hl, tail, rfl, htail⟩ := of_parameterText?_eq_some hparams
  exact ⟨name, tail, hident, hne, hname, hl, hs, htail⟩

theorem at?_call {lead name params tail : Text} (hne : name ≠ [])
    (hname : ∀ c ∈ name, isIdentChar c = true) (hl : '\n' ∉ params) (hb : '{' ∉ params)
    (ht : opensBody tail = true) :
    at? lead (lead ++ (name ++ '(' :: (params ++ ')' :: tail))) =
      some ⟨[], lead ++ name, params, lead ++ (name ++ '(' :: (params ++ ')' :: tail))⟩ := by
  rw [at?, callHead?_append hne hname]
  simp [parameterText?_append hl hb ht]

theorem at?_eq_none_of_not_isPrefix {lead s : Text} (h : ¬ lead <+: s) : at? lead s = none := by
  rw [at?, callHead?, Text.after?_eq_none_iff.2 h]

theorem find?_append {lead pre s : Text}
    (h : ∀ u b v, isBlank b = true → pre = u ++ b :: v → at? lead (v ++ s) = none) :
    find? lead (pre ++ s) = (find? lead s).map fun d => { d with before := pre ++ d.before } := by
  induction pre with
  | nil => simp
  | cons b pre ih =>
    have hb : (if isBlank b then at? lead (pre ++ s) else none) = none := by
      split
      · rename_i hblank; exact h [] b pre hblank rfl
      · rfl
    have ih := ih fun u c v hc hpre => h (b :: u) c v hc (by simp [hpre])
    rw [List.cons_append, find?, hb, ih]
    cases find? lead s <;> simp

theorem find?_blank_cons {lead s : Text} {b : Char} {d : Declaration} (hb : isBlank b = true)
    (h : at? lead s = some d) : find? lead (b :: s) = some { d with before := b :: d.before } := by
  simp [find?, hb, h]

end Declaration

/-! ### Lines in front of a definition -/

/-- The line goes on a declaration that the line before has begun: it starts with `noexcept`, white
space and an opening brace. -/
def ClosesDeclaration (line : Text) : Prop :=
  ∃ gap rest, gap ≠ [] ∧ (∀ c ∈ gap, isBlank c = true) ∧ line = "noexcept" ++ (gap ++ '{' :: rest)

theorem ClosesDeclaration.not_inline {line : Text} : ¬ ClosesDeclaration ("inline " ++ line) := by
  rintro ⟨gap, rest, -, -, h⟩
  exact absurd (congrArg List.head? h) (by simp)

/-- The last line ends at the closing bracket of a call shape behind white space: a declaration is
begun whose body is not opened yet. -/
def BeginsDeclaration (lead before : Text) : Prop :=
  ∃ u b name params, isBlank b = true ∧ name ≠ [] ∧ (∀ c ∈ name, isIdentChar c = true) ∧
    '\n' ∉ params ∧ before = u ++ b :: (lead ++ (name ++ '(' :: (params ++ ")\n")))

theorem BeginsDeclaration.suffix {lead before : Text} (h : BeginsDeclaration lead before) :
    ")\n" <:+ before := by
  obtain ⟨u, b, name, params, -, -, -, -, rfl⟩ := h
  exact ⟨u ++ b :: (lead ++ (name ++ '(' :: params)), by simp⟩

theorem closesDeclaration_of_parameterText? {before line params : Text}
    (hw : Text.IsWholeLines before) (hne : before ≠ []) (hb : '{' ∉ before)
    (hline : ∃ c, line.head? = some c ∧ isWordChar c = true)
    (h : parameterText? (before ++ line) = some params) :
    before = params ++ ")\n" ∧ ClosesDeclaration line := by
  obtain ⟨hl, tail, hs, htail⟩ := of_parameterText?_eq_some h
  obtain ⟨gap, rest, hgap, rfl⟩ := opensBody_iff.1 htail
  obtain ⟨t, rfl⟩ := hw.eq_append hne
  obtain ⟨c, hc, hword⟩ := hline
  have hblank : isBlank c = false := Text.isBlank_of_isWordChar hword
  -- the brace stands in the line, and the bracket before the line feed
  obtain ⟨w, hv, rfl⟩ := Text.append_eq_append_cons (v := params ++ ')' :: gap) hb (by simpa using hs)
  obtain ⟨w', rfl, rfl⟩ := Text.append_eq_append_cons (c := '\n') (u := params ++ [')']) (s := gap)
    (v := t) (t := w) (by simp [hl]) (by simpa using hv)
  have hw_head : w.head? = some c := by
    cases w with
    | nil => obtain rfl := by simpa using hc
             exact absurd hword (by decide)
    | cons d w => simpa using hc
  generalize hg : w' ++ '\n' :: w = g at hgap
  cases hgap with
  | blank _ =>
    cases w' with
    | nil => obtain ⟨-, rfl⟩ := List.cons.inj hg; simp at hw_head
    | cons d w' => simp at hg
  | @noexcept b gap hb hgne hall =>
    cases w' with
    | nil =>
      obtain ⟨rfl, rfl⟩ := List.cons.inj hg
      exact ⟨by simp, gap, rest, hgne, hall, by simp⟩
    | cons d w' =>
      obtain ⟨rfl, hgap⟩ := List.cons.inj hg
      obtain ⟨w₂, -, rfl⟩ := Text.append_eq_append_cons
        (show '\n' ∉ ("noexcept" : Text) by decide) hgap.symm
      have := hall c (by simp [List.mem_of_mem_head? hw_head])
      simp [hblank] at this

/-- A definition that begins in whole lines without a brace is a declaration that ends with them and
whose body the next line opens. -/
theorem closesDeclaration_of_at? {lead u v line : Text} {b : Char} {d : Declaration}
    (hlead : '\n' ∉ lead) (hblank : isBlank b = true)
    (hw : Text.IsWholeLines v) (hne : v ≠ []) (hb : '{' ∉ v)
    (hline : ∃ c, line.head? = some c ∧ isWordChar c = true)
    (h : Declaration.at? lead (v ++ line) = some d) :
    BeginsDeclaration lead (u ++ b :: v) ∧ ClosesDeclaration line := by
  obtain ⟨rest, hcall, hparams, -, -⟩ := Declaration.of_at?_eq_some h
  obtain ⟨name, hidentifier, hnne, hname, hs⟩ := of_callHead?_eq_some hcall
  obtain ⟨t, rfl⟩ := hw.eq_append hne
  have hident : '\n' ∉ lead ++ name ++ ['('] := by
    have : '\n' ∉ name := fun hc => absurd (hname _ hc) (by decide)
    simp [hlead, this]
  obtain ⟨w, rfl, rfl⟩ := Text.append_eq_append_cons (v := t) (t := line) (s := rest) hident
    (by rw [hidentifier] at hs; simpa using hs.symm)
  have hcut : w ++ '\n' :: line = (w ++ ['\n']) ++ line := by simp
  rw [hcut] at hparams
  obtain ⟨hend, hclose⟩ := closesDeclaration_of_parameterText? (by intro c hc; simpa using hc.symm)
    (by simp) (fun hm => hb (by simp at hm ⊢; tauto)) hline hparams
  have hl := (of_parameterText?_eq_some hparams).1
  exact ⟨⟨u, b, name, d.parameters, hblank, hnne, hname, hl, by simpa using hend⟩, hclose⟩

end GenScope.Cpp
