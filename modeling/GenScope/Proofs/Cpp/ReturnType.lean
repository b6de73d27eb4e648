import GenScope.Cpp.Source
import GenScope.Proofs.Cpp.Declaration

/-!
# Where a return type is found

The search for a return type starts at the line of the definition and is not confined to it. It takes
the first line that starts with a type (`IsLineType`): a word character and more, as little as
possible, before a call shape. If the line of the definition starts with a type, the return type is
what stands before the first call shape there; if not, it is the type of a later line
(`returnType_found`).
-/

namespace GenScope.Cpp

open Text (isBlank isWordChar isIdentChar)

variable {s text type : Text}

/-- White space, the identifier of a function and an opening bracket. -/
def IsCall (s : Text) : Prop :=
  ∃ b name rest, s = b :: (functionLead ++ (name ++ '(' :: rest)) ∧ isBlank b = true ∧ name ≠ [] ∧
    ∀ c ∈ name, isIdentChar c = true

/-- The text starts a line and stands before a call shape. -/
def StandsBeforeCall (text s : Text) : Prop := '\n' ∉ text ∧ ∃ rest, s = text ++ rest ∧ IsCall rest

/-- The text is all that stands on a line before the first call shape. -/
def StandsBeforeFirstCall (text s : Text) : Prop :=
  StandsBeforeCall text s ∧ ∀ other, StandsBeforeCall other s → text.length ≤ other.length

/-- The line starts with the type: a word character and the shortest text behind it, not empty, that
reaches to a call shape. -/
structure IsLineType (type s : Text) : Prop where
  head : ∃ c, type.head? = some c ∧ isWordChar c = true
  length : 2 ≤ type.length
  call : StandsBeforeCall type s
  shortest : ∀ other, StandsBeforeCall other s → 2 ≤ other.length → type.length ≤ other.length

theorem IsLineType.of_first (h : StandsBeforeFirstCall text s) (hlen : 2 ≤ text.length)
    (hhead : ∃ c, text.head? = some c ∧ isWordChar c = true) : IsLineType text s :=
  ⟨hhead, hlen, h.1, fun other hother _ => h.2 other hother⟩

/-! ### The searches -/

theorem startsCall_iff : startsCall s = true ↔ IsCall s := by
  constructor
  · intro h
    cases s with
    | nil => cases h
    | cons b s =>
      rw [startsCall, Bool.and_eq_true, Option.isSome_iff_exists] at h
      obtain ⟨hb, ⟨identifier, rest⟩, hcall⟩ := h
      obtain ⟨name, rfl, hne, hname, rfl⟩ := of_callHead?_eq_some hcall
      exact ⟨b, name, rest, by simp, hb, hne, hname⟩
  · rintro ⟨b, name, rest, rfl, hb, hne, hname⟩
    rw [startsCall, hb, callHead?_append hne hname]
    rfl

theorem standsBeforeCall_cons {c : Char} (hc : c ≠ '\n') :
    StandsBeforeCall (c :: text) (c :: s) ↔ StandsBeforeCall text s := by
  simp [StandsBeforeCall, Ne.symm hc]

theorem typeText?_eq_some_iff : typeText? s = some text ↔ text ≠ [] ∧ StandsBeforeCall text s ∧
    ∀ other, StandsBeforeCall other s → other ≠ [] → text.length ≤ other.length := by
  induction s generalizing text with
  | nil =>
    refine iff_of_false (by simp [typeText?]) ?_
    rintro ⟨hne, ⟨-, rest, hs, -⟩, -⟩
    exact hne (List.append_eq_nil_iff.1 hs.symm).1
  | cons c s ih =>
    -- a text before a call shape starts with `c`, which is no line feed
    have hcons : ∀ {other}, other ≠ [] → StandsBeforeCall other (c :: s) → c ≠ '\n' ∧ ∃ t, other = c :: t := by
      rintro other hne ⟨hl, rest, hs, -⟩
      obtain ⟨d, t, rfl⟩ := List.exists_cons_of_ne_nil hne
      obtain ⟨rfl, -⟩ := List.cons.inj hs
      exact ⟨fun hc => hl (by simp [hc]), t, rfl⟩
    rw [typeText?]
    split
    · rename_i hc
      refine iff_of_false (by simp) fun ⟨hne, hcall, _⟩ => (hcons hne hcall).1 (by simpa using hc)
    · rename_i hc
      have hc : c ≠ '\n' := by simpa using hc
      split
      · rename_i hstart
        have hone : StandsBeforeCall [c] (c :: s) := ⟨by simp [Ne.symm hc], s, rfl, startsCall_iff.1 hstart⟩
        constructor
        · rintro h
          obtain rfl := Option.some.inj h
          exact ⟨by simp, hone, fun other _ hne => List.length_pos_iff.2 hne⟩
        · rintro ⟨hne, hcall, hshort⟩
          obtain ⟨-, t, rfl⟩ := hcons hne hcall
          have hlen : (c :: t).length ≤ 1 := hshort [c] hone (by simp)
          have ht : t = [] := List.eq_nil_of_length_eq_zero (by simpa using hlen)
          rw [ht]
      · rename_i hstart
        have hpos : ∀ {other}, StandsBeforeCall other s → other ≠ [] := by
          rintro other ⟨-, rest, rfl, hcall⟩ rfl
          exact hstart (startsCall_iff.2 hcall)
        rw [Option.map_eq_some_iff]
        constructor
        · rintro ⟨t, ht, rfl⟩
          obtain ⟨-, hcall, hshort⟩ := ih.1 ht
          refine ⟨by simp, (standsBeforeCall_cons hc).2 hcall, fun other hother hne => ?_⟩
          obtain ⟨-, other, rfl⟩ := hcons hne hother
          have hother := (standsBeforeCall_cons hc).1 hother
          exact Nat.succ_le_succ (hshort other hother (hpos hother))
        · rintro ⟨hne, hcall, hshort⟩
          obtain ⟨-, t, rfl⟩ := hcons hne hcall
          have hcall := (standsBeforeCall_cons hc).1 hcall
          refine ⟨t, ih.2 ⟨hpos hcall, hcall, fun other hother _ => ?_⟩, rfl⟩
          exact Nat.le_of_succ_le_succ (hshort (c :: other) ((standsBeforeCall_cons hc).2 hother) (by simp))

theorem typeAtLine?_eq_some_iff : typeAtLine? s = some type ↔ IsLineType type s := by
  cases s with
  | nil =>
    refine iff_of_false (by simp [typeAtLine?]) fun h => ?_
    obtain ⟨-, rest, hs, -⟩ := h.call
    have := h.length
    simp [(List.append_eq_nil_iff.1 hs.symm).1] at this
  | cons c s =>
    have hcons : ∀ {other}, 2 ≤ other.length → StandsBeforeCall other (c :: s) →
        c ≠ '\n' ∧ ∃ t, t ≠ [] ∧ other = c :: t := by
      rintro other hlen ⟨hl, rest, hs, -⟩
      match other, hlen with
      | d :: e :: t, _ =>
        obtain ⟨rfl, -⟩ := List.cons.inj hs
        exact ⟨fun hc => hl (by simp [hc]), e :: t, by simp, rfl⟩
    rw [typeAtLine?]
    split
    · rename_i hword
      have hc : c ≠ '\n' := by rintro rfl; exact absurd hword (by decide)
      rw [Option.map_eq_some_iff]
      constructor
      · rintro ⟨t, ht, rfl⟩
        obtain ⟨hne, hcall, hshort⟩ := typeText?_eq_some_iff.1 ht
        refine ⟨⟨c, rfl, hword⟩, Nat.succ_le_succ (List.length_pos_iff.2 hne), (standsBeforeCall_cons hc).2 hcall, ?_⟩
        intro other hother hlen
        obtain ⟨-, other, hne, rfl⟩ := hcons hlen hother
        exact Nat.succ_le_succ (hshort other ((standsBeforeCall_cons hc).1 hother) hne)
      · intro h
        obtain ⟨-, t, hne, rfl⟩ := hcons h.length h.call
        have hcall := (standsBeforeCall_cons hc).1 h.call
        refine ⟨t, typeText?_eq_some_iff.2 ⟨hne, hcall, fun other hother hne => ?_⟩, rfl⟩
        have hlen : 2 ≤ (c :: other).length := Nat.succ_le_succ (List.length_pos_iff.2 hne)
        exact Nat.le_of_succ_le_succ (h.shortest (c :: other) ((standsBeforeCall_cons hc).2 hother) hlen)
    · rename_i hword
      refine iff_of_false (by simp) fun h => ?_
      obtain ⟨-, t, -, rfl⟩ := hcons h.length h.call
      obtain ⟨d, hd, hdword⟩ := h.head
      obtain rfl := Option.some.inj hd
      exact hword hdword

theorem typeAtLine?_eq_none_iff : typeAtLine? s = none ↔ ∀ type, ¬ IsLineType type s := by
  simp only [← typeAtLine?_eq_some_iff, Option.eq_none_iff_forall_ne_some, Ne]

/-! ### From line to line -/

theorem typeFrom?_true (s : Text) : typeFrom? true s = (typeAtLine? s).or (typeFrom? false s) := by
  cases s with
  | nil => rfl
  | cons c s => simp [typeFrom?]

theorem typeFrom?_false_newline (s : Text) : typeFrom? false ('\n' :: s) = typeFrom? true s := rfl

theorem typeFrom?_false_cons {c : Char} (hc : c ≠ '\n') (s : Text) :
    typeFrom? false (c :: s) = typeFrom? false s := by
  rw [typeFrom?, beq_eq_false_iff_ne.2 hc]
  rfl

theorem of_typeFrom?_false_eq_some (h : typeFrom? false s = some type) :
    ∃ before after, s = before ++ '\n' :: after ∧ IsLineType type after ∧
      ∀ u v, before = u ++ '\n' :: v → ∀ other, ¬ IsLineType other (v ++ '\n' :: after) := by
  induction s with
  | nil => cases h
  | cons c s ih =>
    by_cases hc : c = '\n'
    · subst hc
      rw [typeFrom?_false_newline, typeFrom?_true] at h
      rcases Option.or_eq_some_iff.1 h with h | ⟨hnone, h⟩
      · exact ⟨[], s, rfl, typeAtLine?_eq_some_iff.1 h, by simp⟩
      · obtain ⟨before, after, rfl, htype, hfirst⟩ := ih h
        refine ⟨'\n' :: before, after, rfl, htype, fun u v huv => ?_⟩
        cases u with
        | nil =>
          obtain ⟨-, rfl⟩ := List.cons.inj huv
          exact typeAtLine?_eq_none_iff.1 hnone
        | cons d u => exact hfirst u v (List.cons.inj huv).2
    · rw [typeFrom?_false_cons hc] at h
      obtain ⟨before, after, rfl, htype, hfirst⟩ := ih h
      refine ⟨c :: before, after, rfl, htype, fun u v huv => ?_⟩
      cases u with
      | nil => exact absurd (List.cons.inj huv).1 hc
      | cons d u => exact hfirst u v (List.cons.inj huv).2

namespace FunctionSource

variable {f : FunctionSource} {a : FunctionArtifact}

theorem of_extract_eq_ok (h : f.extract = .ok a) :
    ∃ d, f.declaration? = some d ∧ a.name = demangle d.identifier ∧ returnType? d.fromLine = some a.returnType := by
  rw [extract, name, parameters, declaration, returnType] at h
  cases hd : f.declaration? with
  | none => simp [hd, Except.map, bind, Except.bind] at h
  | some d =>
    cases ht : returnType? d.fromLine with
    | none => simp [hd, ht, Except.map, bind, Except.bind] at h
    | some type =>
      cases hl : f.localVars with
      | error e => simp [hd, ht, hl, Except.map, bind, Except.bind] at h
      | ok locals =>
        simp only [hd, ht, hl, Except.map, bind, Except.bind, pure, Except.pure, Except.ok.injEq] at h
        subst h
        exact ⟨d, rfl, rfl, ht⟩

/-- The return type comes from the line of the definition if that line starts with a type: it is then
what stands before the first call shape there, if that are two characters at least. Otherwise it
comes from the first later line that starts with a type. -/
theorem returnType_found (h : f.extract = .ok a) :
    ∃ d type, f.declaration? = some d ∧ a.name = demangle d.identifier ∧
      a.returnType = Text.replace "inline " "" type ∧
      (∀ text, StandsBeforeFirstCall text d.fromLine → 2 ≤ text.length →
        (∃ c, text.head? = some c ∧ isWordChar c = true) → type = text) ∧
      (IsLineType type d.fromLine ∨
        (∀ other, ¬ IsLineType other d.fromLine) ∧
        ∃ before after, d.fromLine = before ++ '\n' :: after ∧ IsLineType type after ∧
          ∀ u v, before = u ++ '\n' :: v → ∀ other, ¬ IsLineType other (v ++ '\n' :: after)) := by
  obtain ⟨d, hd, hname, hreturn⟩ := of_extract_eq_ok h
  obtain ⟨type, htype, hreplace⟩ := Option.map_eq_some_iff.1 hreturn
  rw [typeFrom?_true] at htype
  refine ⟨d, type, hd, hname, hreplace.symm, fun text htext hlen hhead => ?_, ?_⟩
  · have hline := typeAtLine?_eq_some_iff.2 (IsLineType.of_first htext hlen hhead)
    rw [hline, Option.some_or] at htype
    exact (Option.some.inj htype).symm
  · rcases Option.or_eq_some_iff.1 htype with htype | ⟨hnone, htype⟩
    · exact .inl (typeAtLine?_eq_some_iff.1 htype)
    · exact .inr ⟨typeAtLine?_eq_none_iff.1 hnone, of_typeFrom?_false_eq_some htype⟩

/-- The type behind `inline`, and another definition behind the body. -/
theorem returnType_found_inline :
    let f : FunctionSource := ⟨.ofText "a.h", ".h", "inline string f$a() \x7b\n\x7d\nvoid f$b() \x7b\n\x7d\n"⟩
    ∃ a d, f.extract = .ok a ∧ a.name = "a" ∧ f.declaration? = some d ∧ IsLineType "inline string" d.fromLine ∧
      a.returnType = "string" := by
  intro f
  obtain ⟨d, type, hd, hname, hreturn, -, hline⟩ := returnType_found (f := f) rfl
  have hfrom : f.declaration? = some ⟨"inline string ", "f$a", "", "f$a() \x7b\n\x7d\nvoid f$b() \x7b\n\x7d\n"⟩ := by
    decide +kernel
  obtain rfl := Option.some.inj (hd.symm.trans hfrom)
  have hread : typeAtLine? f.text = some "inline string" := by decide +kernel
  rcases hline with hline | ⟨hnone, -⟩
  · obtain rfl := Option.some.inj ((typeAtLine?_eq_some_iff.2 hline).symm.trans hread)
    exact ⟨_, _, rfl, hname.trans (by decide), hd, hline, hreturn.trans (by decide +kernel)⟩
  · exact absurd (typeAtLine?_eq_some_iff.1 hread) (hnone _)

/-- The type of the definition is one character long: the return type is that of the next function. -/
theorem returnType_found_later :
    let f : FunctionSource := ⟨.ofText "a.cpp", ".h", "T f$a() \x7b\n\x7d\nvoid f$b() \x7b\n\x7d\n"⟩
    ∃ a d, f.extract = .ok a ∧ f.declaration? = some d ∧ a.name = "a" ∧ d.identifier = "f$a" ∧
      StandsBeforeFirstCall "T" d.fromLine ∧ a.returnType = "void" := by
  intro f
  have hfirst : StandsBeforeFirstCall "T" ("T f$a() \x7b\n\x7d\nvoid f$b() \x7b\n\x7d\n" : Text) := by
    refine ⟨⟨by decide, _, rfl, startsCall_iff.1 (by decide)⟩, fun other ⟨_, rest, hs, hcall⟩ => ?_⟩
    refine List.length_pos_iff.2 ?_
    rintro rfl
    rw [← startsCall_iff, ← List.nil_append rest, ← hs] at hcall
    revert hcall
    decide
  exact ⟨_, _, rfl, rfl, by decide +kernel, by decide +kernel, hfirst, by decide +kernel⟩

end FunctionSource

end GenScope.Cpp
