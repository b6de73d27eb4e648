import GenScope.Cpp.Source
import GenScope.Proofs.Cpp.Declaration

/-!
# Definition lines

The line on which the generator opens the body of a function (`DefinitionLine.text`), and what the
searches find in a file that holds it. The plain search finds the line behind whole lines without
an opening brace (`find?_plain`), the forkable search behind whole lines without a forkable
identifier (`find?_of_not_infix`), and the type search reads the type at its start
(`returnType?_text`).
-/

namespace GenScope.Cpp

open Text (isBlank isWordChar isIdentChar)

/-- The parts of a line that opens the body of a function. -/
structure DefinitionLine where
  isInline : Bool
  type : Text
  /-- What the identifier starts with. -/
  lead : Text
  /-- The rest of the identifier. -/
  name : Text
  parameters : Text
  isNoexcept : Bool

namespace DefinitionLine

def identifier (l : DefinitionLine) : Text := l.lead ++ l.name

def head (l : DefinitionLine) : Text := (if l.isInline then ("inline " : Text) else []) ++ l.type

/-- What stands between the closing bracket and the brace. -/
def gap (l : DefinitionLine) : Text := if l.isNoexcept then " noexcept " else " "

def text (l : DefinitionLine) : Text :=
  l.head ++ " " ++ l.identifier ++ "(" ++ l.parameters ++ ")" ++ l.gap ++ ['{']

/-- The line from its identifier on, and what follows it. -/
def call (l : DefinitionLine) (rest : Text) : Text :=
  l.lead ++ (l.name ++ '(' :: (l.parameters ++ ')' :: (l.gap ++ '{' :: rest)))

theorem text_append (l : DefinitionLine) (rest : Text) :
    l.text ++ rest = l.head ++ ' ' :: l.call rest := by
  simp [text, call, identifier]

/-- The parts are as a generator writes them: the type starts with a word character and holds no
lead of an identifier, the name is an identifier, and type and parameters stay on the line. -/
structure WellFormed (l : DefinitionLine) : Prop where
  lead : l.lead = functionLead ∨ l.lead = forkLead
  type_head : ∃ c, l.type.head? = some c ∧ isWordChar c = true
  type_line : '\n' ∉ l.type
  type_plain : ¬ functionLead <:+: l.type
  name_ne : l.name ≠ []
  name_ident : ∀ c ∈ l.name, isIdentChar c = true
  parameters_line : '\n' ∉ l.parameters
  parameters_brace : '{' ∉ l.parameters

variable {l : DefinitionLine}

theorem opensBody_gap (l : DefinitionLine) (rest : Text) : opensBody (l.gap ++ '{' :: rest) = true := by
  have hblank : isBlank ' ' = true := by decide
  refine opensBody_iff.2 ⟨l.gap, rest, ?_, rfl⟩
  unfold gap
  split
  · show BodyGap (' ' :: ("noexcept" ++ [' ']))
    exact .noexcept hblank (by simp) (by simp [hblank])
  · exact .blank hblank

theorem WellFormed.functionLead_isPrefix (h : l.WellFormed) : functionLead <+: l.lead := by
  rcases h.lead with h | h
  · rw [h]
  · rw [h]; decide

theorem WellFormed.head_head (h : l.WellFormed) : ∃ c, l.head.head? = some c ∧ isWordChar c = true := by
  unfold head
  split
  · exact ⟨'i', by simp, by decide⟩
  · simpa using h.type_head

theorem WellFormed.head_line (h : l.WellFormed) : '\n' ∉ l.head := by
  have := h.type_line
  unfold head
  split
  · rw [List.mem_append, not_or]; exact ⟨by decide, this⟩
  · simpa using this

theorem WellFormed.head_plain (h : l.WellFormed) : ¬ functionLead <:+: l.head := by
  have := h.type_plain
  unfold head
  split
  · simpa [functionLead, List.infix_cons_iff, List.cons_prefix_cons] using this
  · simpa using h.type_plain

theorem WellFormed.head_lead (h : l.WellFormed) : ¬ l.lead <:+: l.head :=
  fun hl => h.head_plain (h.functionLead_isPrefix.isInfix.trans hl)

theorem WellFormed.not_mem_lead_space (h : l.WellFormed) : ' ' ∉ l.lead := by
  rcases h.lead with h | h <;> (rw [h]; decide)

theorem WellFormed.not_mem_lead_newline (h : l.WellFormed) : '\n' ∉ l.lead := by
  rcases h.lead with h | h <;> (rw [h]; decide)

theorem WellFormed.at?_call (h : l.WellFormed) (rest : Text) :
    Declaration.at? l.lead (l.call rest) = some ⟨[], l.identifier, l.parameters, l.call rest⟩ :=
  Declaration.at?_call h.name_ne h.name_ident h.parameters_line h.parameters_brace
    (l.opensBody_gap rest)

/-- The declaration that the searches are to find in a file with the line. -/
def declaration (l : DefinitionLine) (before rest : Text) : Declaration where
  before := before ++ l.head ++ [' ']
  identifier := l.identifier
  parameters := l.parameters
  rest := l.call rest

theorem WellFormed.find?_text (h : l.WellFormed) {before rest : Text}
    (hbefore : ∀ u b v, isBlank b = true → before = u ++ b :: v →
      Declaration.at? l.lead (v ++ (l.text ++ rest)) = none) :
    Declaration.find? l.lead (before ++ (l.text ++ rest)) = some (l.declaration before rest) := by
  have hhead : ∀ u b v, l.head = u ++ b :: v → Declaration.at? l.lead (v ++ ' ' :: l.call rest) = none := by
    intro u b v huv
    refine Declaration.at?_eq_none_of_not_isPrefix fun hp => h.head_lead ?_
    have hv := Text.isPrefix_of_isPrefix_append_cons h.not_mem_lead_space hp
    exact hv.isInfix.trans ⟨u ++ [b], [], by simp [huv]⟩
  have hpre : ∀ u b v, isBlank b = true → before ++ l.head = u ++ b :: v →
      Declaration.at? l.lead (v ++ ' ' :: l.call rest) = none := by
    intro u b v hblank huv
    rcases List.append_eq_append_iff.1 huv with ⟨w, -, hw⟩ | ⟨w, hu, hw⟩
    · exact hhead w b v hw
    · cases w with
      | nil => exact hhead [] b v hw.symm
      | cons c w =>
        obtain ⟨rfl, rfl⟩ := List.cons.inj hw
        simpa [text_append] using hbefore u b w hblank hu
  have hcall := Declaration.find?_blank_cons (b := ' ') (by decide) (h.at?_call rest)
  rw [text_append, ← List.append_assoc, Declaration.find?_append hpre, hcall]
  simp [declaration]

/-! ### Behind whole lines -/

theorem WellFormed.closesDeclaration_head (h : l.WellFormed) {rest : Text}
    (hc : ClosesDeclaration (l.text ++ rest)) : ClosesDeclaration l.head := by
  obtain ⟨gap, tail, hne, hall, hs⟩ := hc
  rw [text_append, ← List.append_assoc] at hs
  have hbrace : '{' ∉ ("noexcept" : Text) ++ gap := by
    intro hm
    rcases List.mem_append.1 hm with hm | hm
    · exact absurd hm (by decide)
    · exact absurd (hall _ hm) (by decide)
  by_cases hhead : '{' ∈ l.head
  · obtain ⟨x, y, hxy, hx⟩ := List.eq_append_cons_of_mem hhead
    rw [hxy, List.append_assoc] at hs
    obtain ⟨w, hw, hw'⟩ := Text.append_eq_append_cons hx hs
    cases w with
    | nil => exact ⟨gap, y, hne, hall, by rw [hxy, ← List.append_assoc, hw, List.append_nil]⟩
    | cons c w =>
      obtain ⟨rfl, -⟩ := List.cons.inj hw'
      exact absurd (by rw [hw]; simp) hbrace
  · -- the identifier starts with a letter that stands neither in `noexcept` nor in white space
    obtain ⟨call, hcall⟩ : ∃ call, l.call rest = 'f' :: call := by
      obtain ⟨t, ht⟩ := h.functionLead_isPrefix
      exact ⟨_, by rw [call, ← ht]; rfl⟩
    rw [hcall] at hs
    have hpre : '{' ∉ l.head ++ [' ', 'f'] := by simp [hhead]
    obtain ⟨w, hw, -⟩ := Text.append_eq_append_cons (s := call) hpre (by rw [List.append_assoc]; exact hs)
    have hf : 'f' ∈ ("noexcept" : Text) ++ gap := by rw [hw]; simp
    rcases List.mem_append.1 hf with hm | hm
    · exact absurd hm (by decide)
    · exact absurd (hall _ hm) (by decide)

/-- Behind whole lines without a brace the line holds the first definition, unless it goes on a
declaration that the line before has begun. -/
theorem WellFormed.find?_plain (h : l.WellFormed) {before rest : Text}
    (hw : Text.IsWholeLines before) (hb : '{' ∉ before)
    (hc : ¬ (BeginsDeclaration l.lead before ∧ ClosesDeclaration l.head)) :
    Declaration.find? l.lead (before ++ (l.text ++ rest)) = some (l.declaration before rest) := by
  have hline : ∃ c, (l.text ++ rest).head? = some c ∧ isWordChar c = true := by
    obtain ⟨c, hc, hword⟩ := h.head_head
    exact ⟨c, by simp [text_append, hc], hword⟩
  refine h.find?_text fun u b v hblank huv => ?_
  by_cases hv : v = []
  · rw [hv, List.nil_append, text_append]
    exact Declaration.at?_eq_none_of_not_isPrefix fun hp =>
      h.head_lead (Text.isPrefix_of_isPrefix_append_cons h.not_mem_lead_space hp).isInfix
  · have hvw : Text.IsWholeLines v := Text.IsWholeLines.of_append (s := u ++ [b]) (by simpa [huv] using hw)
    cases hat : Declaration.at? l.lead (v ++ (l.text ++ rest)) with
    | none => rfl
    | some d =>
      obtain ⟨hbegin, hclose⟩ := closesDeclaration_of_at? (u := u) h.not_mem_lead_newline hblank hvw hv
        (fun hm => hb (by rw [huv]; simp [hm])) hline hat
      exact absurd ⟨huv ▸ hbegin, h.closesDeclaration_head hclose⟩ hc

theorem WellFormed.find?_of_not_infix (h : l.WellFormed) {before rest : Text}
    (hw : Text.IsWholeLines before) (hb : ¬ l.lead <:+: before) :
    Declaration.find? l.lead (before ++ (l.text ++ rest)) = some (l.declaration before rest) := by
  refine h.find?_text fun u b v _ huv => Declaration.at?_eq_none_of_not_isPrefix fun hp => ?_
  have hvw : Text.IsWholeLines v := Text.IsWholeLines.of_append (s := u ++ [b]) (by simpa [huv] using hw)
  by_cases hv : v = []
  · rw [hv, List.nil_append, text_append] at hp
    exact h.head_lead (Text.isPrefix_of_isPrefix_append_cons h.not_mem_lead_space hp).isInfix
  · obtain ⟨t, rfl⟩ := hvw.eq_append hv
    rw [List.append_assoc] at hp
    have ht := Text.isPrefix_of_isPrefix_append_cons h.not_mem_lead_newline hp
    exact hb (ht.isInfix.trans ⟨u ++ [b], ['\n'], by simp [huv]⟩)

/-! ### The type at the start of the line -/

theorem WellFormed.callHead?_isSome (h : l.WellFormed) (rest : Text) :
    (callHead? functionLead (l.call rest)).isSome = true := by
  have hcall : callHead? l.lead (l.call rest) = some (l.identifier, l.parameters ++ ')' :: (l.gap ++ '{' :: rest)) :=
    callHead?_append h.name_ne h.name_ident
  rw [callHead?_functionLead h.lead hcall]
  rfl

theorem typeText?_append {type call : Text} (hne : type ≠ []) (hl : '\n' ∉ type)
    (hp : ¬ functionLead <:+: type) (hcall : (callHead? functionLead call).isSome = true) :
    typeText? (type ++ ' ' :: call) = some type := by
  induction type with
  | nil => exact absurd rfl hne
  | cons c type ih =>
    obtain ⟨hcl, hl⟩ := not_or.1 (mt List.mem_cons.2 hl)
    obtain ⟨-, hp⟩ := not_or.1 (mt List.infix_cons_iff.2 hp)
    rw [List.cons_append, typeText?, if_neg (by simpa using Ne.symm hcl)]
    cases type with
    | nil => simp [startsCall, hcall, show isBlank ' ' = true by decide]
    | cons d type =>
      have hno : callHead? functionLead (type ++ ' ' :: call) = none := by
        rw [callHead?, Text.after?_eq_none_iff.2 fun h => hp ?_]
        have ht := Text.isPrefix_of_isPrefix_append_cons (show ' ' ∉ functionLead by decide) h
        exact ht.isInfix.trans (List.infix_cons (List.infix_refl _))
      have hcont : startsCall (d :: (type ++ ' ' :: call)) = false := by simp [startsCall, hno]
      have ih := ih (by simp) hl hp
      rw [List.cons_append] at ih ⊢
      simp [hcont, ih]

theorem WellFormed.returnType?_text (h : l.WellFormed) {rest : Text} (hlen : 2 ≤ l.type.length)
    (hi : ¬ ("inline " : Text) <:+: l.type) : returnType? (l.text ++ rest) = some l.type := by
  obtain ⟨c, hc, hword⟩ := h.head_head
  obtain ⟨s, hs⟩ := List.head?_eq_some_iff.1 hc
  have hsne : s ≠ [] := by
    rintro rfl
    have := congrArg List.length hs
    unfold head at this
    split at this
    · simp at this
    · simp at this; omega
  have hline := h.head_line
  have hplain := h.head_plain
  rw [hs] at hline hplain
  have htype : typeText? (s ++ ' ' :: l.call rest) = some s :=
    typeText?_append hsne (fun hm => hline (by simp [hm]))
      (fun hm => hplain (hm.trans (List.infix_cons (List.infix_refl _)))) (h.callHead?_isSome rest)
  have hreplace : Text.replace "inline " "" l.head = l.type := by
    unfold head
    split
    · rw [Text.replace_append _ _ _ (by simp), Text.replace_of_not_infix hi]; rfl
    · exact Text.replace_of_not_infix hi
  have hfrom : typeFrom? true (l.text ++ rest) = some l.head := by
    rw [text_append, hs, List.cons_append, typeFrom?]
    simp [typeAtLine?, hword, htype]
  rw [returnType?, hfrom]
  exact congrArg some hreplace

end DefinitionLine

end GenScope.Cpp
