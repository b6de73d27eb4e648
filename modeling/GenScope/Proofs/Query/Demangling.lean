import GenScope.Proofs.Query.QualifiedName

/-!
# Reading names from identifiers

`demangle_mangled_iff`: which names are read back from the identifiers of their functions. Nothing is
lost but what is taken for a lead: reading keeps the length of what stands behind the leads
(`length_demangle`), so a name is read back exactly if the leads are cut off where it begins
(`OfWords.demangle_eq_text_iff`). A lead is taken from the name itself if the name goes on behind
`fork` or `f` (`OfWords.lead_isPrefix_mangled_iff`).
-/

namespace GenScope

/-! ### Leads -/

section Leads

variable {lead name : Text}

theorem dropLead_append (lead rest : Text) : dropLead lead (lead ++ rest) = rest := by
  rw [dropLead, Text.after?_append, Option.getD_some]

theorem dropLead_of_not_isPrefix (h : ¬ lead <+: name) : dropLead lead name = name := by
  rw [dropLead, Text.after?_eq_none_iff.2 h, Option.getD_none]

theorem dropLead_isSuffix (lead name : Text) : dropLead lead name <:+ name := by
  by_cases h : lead <+: name
  · obtain ⟨rest, rfl⟩ := h
    rw [dropLead_append]
    exact List.suffix_append lead rest
  · rw [dropLead_of_not_isPrefix h]

theorem dropLead_eq_self_iff (hne : lead ≠ []) : dropLead lead name = name ↔ ¬ lead <+: name := by
  refine ⟨fun h hp => ?_, dropLead_of_not_isPrefix⟩
  obtain ⟨rest, rfl⟩ := hp
  rw [dropLead_append] at h
  exact hne (by simpa using h)

/-- An identifier without its leads. -/
def bareIdentifier (identifier : Text) : Text := dropLead functionLead (dropLead forkLead identifier)

theorem bareIdentifier_forkable (name : Text) :
    bareIdentifier (forkLead ++ name) = dropLead functionLead name := by
  rw [bareIdentifier, dropLead_append]

theorem bareIdentifier_plain (h : ¬ ("fork" : Text) ++ ['$'] <+: name) :
    bareIdentifier (functionLead ++ name) = name := by
  have hfork : ¬ forkLead <+: functionLead ++ name := fun hp =>
    h ((List.prefix_append_right_inj functionLead).1 hp)
  rw [bareIdentifier, dropLead_of_not_isPrefix hfork, dropLead_append]

theorem length_bareIdentifier_lt (h : ("fork" : Text) ++ ['$'] <+: name) :
    (bareIdentifier (functionLead ++ name)).length < name.length := by
  obtain ⟨rest, rfl⟩ := h
  show (bareIdentifier (forkLead ++ rest)).length < _
  have hle := (dropLead_isSuffix functionLead rest).length_le
  rw [bareIdentifier_forkable, List.length_append]
  exact Nat.lt_of_le_of_lt hle (Nat.lt_add_of_pos_left (by decide))

theorem length_demangle (identifier : Text) :
    (demangle identifier).length = (bareIdentifier identifier).length := by
  unfold demangle
  dsimp only
  rw [Text.length_substitute, Text.length_replaceFirst (by decide),
    Text.length_replaceFirst (by decide), bareIdentifier]

end Leads

namespace QualifiedName

variable {n : QualifiedName} {sep : Char} {mark w t : Text}

/-! ### What a name starts with -/

/-- What stands behind the first segment. -/
def behindFirst (n : QualifiedName) (sep : Char) (mark : Text) : Text :=
  n.segments.tail.flatMap (sep :: ·) ++ (n.method.map (mark ++ ·)).getD []

/-- A word in front of a separator at the start of a name is its first segment. What follows the name
(`t`) does not matter, unless the name is a single segment. -/
theorem OfWords.word_isPrefix_written_iff (h : n.OfWords) (hw : ∀ c ∈ w, isNameChar c = true) {c d : Char}
    (hc : isNameChar c = false) (hsep : isNameChar sep = false) (hd : isNameChar d = false)
    (ht : n.method = none → t = []) (u : Text) :
    w ++ c :: u <+: n.written sep (d :: mark) ++ t ↔
      n.segments.head? = some w ∧ c :: u <+: n.behindFirst sep (d :: mark) ++ t := by
  obtain ⟨first, rest, hs⟩ := List.exists_cons_of_ne_nil h.segments_ne
  have hfirst : ∀ c ∈ first, isNameChar c = true := (h.segment first (by simp [hs])).2
  have hwritten : n.written sep (d :: mark) = first ++ n.behindFirst sep (d :: mark) := by
    rw [written, behindFirst, hs, Text.join_cons, List.append_assoc]
    rfl
  have hbehind : ∀ e, (n.behindFirst sep (d :: mark) ++ t).head? = some e → isNameChar e = false := by
    unfold behindFirst
    rw [hs]
    cases rest with
    | cons s rest => simp [hsep]
    | nil =>
      cases hm : n.method with
      | none => simp [ht hm]
      | some m => simp [hd]
  rw [hwritten, List.append_assoc, Text.run_append_cons_isPrefix_iff hw hfirst hc hbehind, hs]
  simp [eq_comm]

/-- The word stands at the start of the name, and a separator follows it. -/
def GoesOnBehind (n : QualifiedName) (w : Text) : Prop :=
  w ++ ['\\'] <+: n.text ∨ w ++ [':', ':'] <+: n.text

instance (n : QualifiedName) (w : Text) : Decidable (n.GoesOnBehind w) :=
  inferInstanceAs (Decidable (_ ∨ _))

theorem OfWords.goesOnBehind_iff (h : n.OfWords) (hw : ∀ c ∈ w, isNameChar c = true) :
    n.GoesOnBehind w ↔ n.segments.head? = some w ∧ (n.segments.tail ≠ [] ∨ n.method ≠ none) := by
  have hslash : isNameChar '\\' = false := by decide
  have hcolon : isNameChar ':' = false := by decide
  have hword : ∀ (c : Char) (u : Text), isNameChar c = false →
      (w ++ c :: u <+: n.written '\\' [':', ':'] ↔
        n.segments.head? = some w ∧ c :: u <+: n.behindFirst '\\' [':', ':']) := by
    intro c u hc
    simpa using h.word_isPrefix_written_iff hw hc hslash hcolon (t := []) (fun _ => rfl) u
  show w ++ ['\\'] <+: n.written '\\' [':', ':'] ∨ w ++ [':', ':'] <+: n.written '\\' [':', ':'] ↔ _
  rw [hword _ _ hslash, hword _ _ hcolon, ← and_or_left, behindFirst]
  refine and_congr_right fun _ => ?_
  cases n.segments.tail with
  | cons s rest => simp
  | nil => cases n.method <;> simp

theorem OfWords.lead_isPrefix_mangled_iff (h : n.OfWords) (hw : ∀ c ∈ w, isNameChar c = true)
    (ht : n.method = none → t = []) : w ++ ['$'] <+: n.mangled ++ t ↔ n.GoesOnBehind w := by
  rw [h.goesOnBehind_iff hw]
  show w ++ ['$'] <+: n.written '$' ['$', '$'] ++ t ↔ _
  rw [h.word_isPrefix_written_iff hw (by decide) (by decide) (by decide) ht, behindFirst]
  refine and_congr_right fun _ => ?_
  cases n.segments.tail with
  | cons s rest => simp
  | nil =>
    cases hm : n.method with
    | none => simp [ht hm]
    | some m => simp

theorem OfWords.fork_isPrefix_mangled_iff (h : n.OfWords) (ht : n.method = none → t = []) :
    ("fork" : Text) ++ ['$'] <+: n.mangled ++ t ↔ n.GoesOnBehind "fork" :=
  h.lead_isPrefix_mangled_iff (by simp [isNameChar]) ht

theorem WellFormed.not_goesOnBehind_fork (h : n.WellFormed) : ¬ n.GoesOnBehind "fork" := by
  rw [h.goesOnBehind_iff (by simp [isNameChar])]
  rintro ⟨hhead, hlonger⟩
  obtain ⟨hlen, hm⟩ := h.fork hhead
  obtain ⟨s, hs⟩ := List.length_eq_one_iff.1 hlen
  rcases hlonger with htail | hmethod
  · exact htail (by rw [hs]; rfl)
  · exact hmethod hm

/-! ### Reading -/

theorem length_text (n : QualifiedName) : n.text.length = n.mangled.length := by
  have hjoin : ∀ c d : Char, (Text.join [c] n.segments).length = (Text.join [d] n.segments).length := by
    intro c d
    cases n.segments with
    | nil => rfl
    | cons first rest => simp [Text.join_cons, List.length_flatMap]
  unfold text mangled written
  rw [List.length_append, List.length_append, hjoin '\\' '$']
  cases n.method <;> simp

/-- Behind the leads the name is read, and then what follows it. -/
theorem OfWords.demangle_of_bareIdentifier (h : n.OfWords) (ht : n.method = none → t = []) {identifier : Text}
    (hbare : bareIdentifier identifier = n.mangled ++ t) :
    demangle identifier = n.text ++ Text.substitute '$' '\\' (Text.replaceFirst "$$" "__" t) := by
  have hcall : Text.replaceFirst "$$" "::" (n.mangled ++ t) = n.written '$' "::" ++ t :=
    h.replaceFirst_written_append (by decide) _ ht
  have hparent : Text.replaceFirst "$$" "__" (n.written '$' "::" ++ t) =
      n.written '$' "::" ++ Text.replaceFirst "$$" "__" t :=
    h.replaceFirst_written_of_not_mem (by decide) (by decide) _ t
  unfold bareIdentifier at hbare
  simp only [demangle, hbare, hcall, hparent]
  rw [Text.substitute_append, h.substitute_written (by decide) (by decide)]
  rfl

theorem OfWords.demangle_of_bareIdentifier_eq (h : n.OfWords) {identifier : Text}
    (hbare : bareIdentifier identifier = n.mangled) : demangle identifier = n.text := by
  have hread := h.demangle_of_bareIdentifier (t := []) (fun _ => rfl) (by simpa using hbare)
  simpa [Text.replaceFirst, Text.substitute] using hread

theorem OfWords.demangle_eq_text_iff (h : n.OfWords) {identifier : Text}
    (hbare : bareIdentifier identifier <:+ n.mangled) :
    demangle identifier = n.text ↔ bareIdentifier identifier = n.mangled := by
  refine ⟨fun hd => ?_, h.demangle_of_bareIdentifier_eq⟩
  have hlen := congrArg List.length hd
  rw [length_demangle, length_text] at hlen
  exact hbare.eq_of_length hlen

theorem WellFormed.demangle_identifier (h : n.WellFormed) : demangle (functionLead ++ n.mangled) = n.text := by
  have hfork := h.fork_isPrefix_mangled_iff (t := []) fun _ => rfl
  rw [List.append_nil] at hfork
  exact h.demangle_of_bareIdentifier_eq (bareIdentifier_plain (mt hfork.1 h.not_goesOnBehind_fork))

/-- A name is read back from its identifier unless it goes on behind `fork`, and from that of its
forkable function unless it goes on behind `f`. A class behind a method is read as the one that
inherits it. -/
theorem demangle_mangled_iff {n : QualifiedName} (h : n.OfWords) :
    (demangle (functionLead ++ n.mangled) = n.text ↔ ¬ n.GoesOnBehind "fork") ∧
    (demangle (forkLead ++ n.mangled) = n.text ↔ ¬ n.GoesOnBehind "f") ∧
    ∀ child : Text, n.method ≠ none → ¬ n.GoesOnBehind "fork" → (∀ c ∈ child, isNameChar c = true) →
      demangle (functionLead ++ (n.mangled ++ ("$$" ++ child))) = n.text ++ ("__" ++ child) := by
  refine ⟨?_, ?_, ?_⟩
  · have hfork := h.fork_isPrefix_mangled_iff (t := []) fun _ => rfl
    rw [List.append_nil] at hfork
    constructor
    · intro hd hgoes
      have hlen := congrArg List.length hd
      rw [length_demangle, length_text] at hlen
      exact absurd hlen (length_bareIdentifier_lt (hfork.2 hgoes)).ne
    · intro hgoes
      exact h.demangle_of_bareIdentifier_eq (bareIdentifier_plain (mt hfork.1 hgoes))
  · have hf : functionLead <+: n.mangled ++ [] ↔ n.GoesOnBehind "f" :=
      h.lead_isPrefix_mangled_iff (w := "f") (by simp [isNameChar]) fun _ => rfl
    have hbare : bareIdentifier (forkLead ++ n.mangled) <:+ n.mangled := by
      rw [bareIdentifier_forkable]
      exact dropLead_isSuffix _ _
    rw [List.append_nil] at hf
    rw [h.demangle_eq_text_iff hbare, bareIdentifier_forkable, dropLead_eq_self_iff (by decide), hf]
  · intro child hm hgoes hchild
    have hfork := h.fork_isPrefix_mangled_iff (t := "$$" ++ child) fun hn => absurd hn hm
    rw [h.demangle_of_bareIdentifier (fun hn => absurd hn hm) (bareIdentifier_plain (mt hfork.1 hgoes))]
    have hcut : Text.replaceFirst "$$" "__" ("$$" ++ child) = "__" ++ child :=
      Text.replaceFirst_append '$' '$' [] "__" child
    have hdollar : '$' ∉ ("__" : Text) ++ child := by
      intro hmem
      rcases List.mem_append.1 hmem with hmem | hmem
      · exact absurd hmem (by decide)
      · exact absurd (hchild _ hmem) (by decide)
    rw [hcut, Text.substitute_of_not_mem hdollar]

/-- A name that goes on behind `f` and not behind `fork`. -/
theorem demangle_mangled_fork_f :
    let n : QualifiedName := ⟨["f", "fork"], some "run"⟩
    n.OfWords ∧ demangle "f$f$fork$$run" = "f\\fork::run" ∧
      demangle "f$fork$f$fork$$run" ≠ "f\\fork::run" ∧
      demangle "f$f$fork$$run$$Child_1" = "f\\fork::run__Child_1" := by
  intro n
  have hn : n.OfWords := ⟨by decide, by simp [n, isNameChar], by simp [n, isNameChar]⟩
  obtain ⟨hplain, hforkable, hchild⟩ := demangle_mangled_iff hn
  have hfork : ¬ n.GoesOnBehind "fork" := by decide
  have hf : n.GoesOnBehind "f" := by decide
  exact ⟨hn, hplain.2 hfork, fun hd => hforkable.1 hd hf,
    hchild "Child_1" (by decide) hfork (by simp [isNameChar])⟩

end QualifiedName

end GenScope
