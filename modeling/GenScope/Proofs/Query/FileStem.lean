import GenScope.Proofs.Query.QualifiedName

/-!
# The stem of a name's file

What the bare name of a text leaves out is a backslash in front and empty parentheses behind
(`exists_affixes`), and a stem is the bare name with marks for separators. A name of segments between
backslashes and pairs of colons is read back from its stem, where a single mark stands for a backslash and two
for a pair of colons (`SegmentedName.replace_stem`), since no segment is empty or holds a mark. So different
names have different stems, and a backslash in front and empty parentheses behind are all that is lost
(`generatorPath_faithful`).
-/

namespace GenScope

variable {c : Char}

/-! ### Every text -/

theorem exists_affixes (s : Text) : ∃ lead call, Text.trim s = lead ++ (bareName s ++ call) ∧
    (lead = "\\" ∨ lead = [] ∧ ¬ ("\\" : Text) <+: Text.trim s) ∧
    (call = "()" ∨ call = [] ∧ ¬ ("()" : Text) <:+ bareName s) := by
  have hlead : ∃ lead, Text.trim s = lead ++ (Text.after? "\\" (Text.trim s)).getD (Text.trim s) ∧
      (lead = "\\" ∨ lead = [] ∧ ¬ ("\\" : Text) <+: Text.trim s) := by
    cases h : Text.after? "\\" (Text.trim s) with
    | none => exact ⟨[], rfl, .inr ⟨rfl, Text.after?_eq_none_iff.1 h⟩⟩
    | some rest => exact ⟨"\\", Text.after?_eq_some_iff.1 h, .inl rfl⟩
  obtain ⟨lead, htrim, hlead⟩ := hlead
  suffices ∃ call, (Text.after? "\\" (Text.trim s)).getD (Text.trim s) = bareName s ++ call ∧
      (call = "()" ∨ call = [] ∧ ¬ ("()" : Text) <:+ bareName s) by
    obtain ⟨call, hname, hcall⟩ := this
    exact ⟨lead, call, by rw [← hname]; exact htrim, hlead, hcall⟩
  unfold bareName
  dsimp only
  split
  · rename_i hend
    obtain ⟨name, hname⟩ := Text.endsWith_iff.1 hend
    rw [← hname]
    exact ⟨"()", by simp, .inl rfl⟩
  · rename_i hend
    exact ⟨[], (List.append_nil _).symm, .inr ⟨rfl, mt Text.endsWith_iff.2 hend⟩⟩

/-! ### Names of segments -/

/-- No separator, no mark, no parenthesis and no white space. -/
def isSegmentChar (c : Char) : Bool :=
  !(c == '\\' || c == ':' || c == '@' || c == '(' || c == ')' || Text.isBlank c)

structure NameSegment where
  text : Text
  ne_nil : text ≠ []
  chars : ∀ c ∈ text, isSegmentChar c = true

theorem NameSegment.not_mem (s : NameSegment) (hc : isSegmentChar c = false) : c ∉ s.text := fun h => by
  simp [s.chars c h] at hc

theorem NameSegment.isBlank (s : NameSegment) (hc : c ∈ s.text) : Text.isBlank c = false := by
  have hchar := s.chars c hc
  unfold isSegmentChar at hchar
  simp_all

inductive NameSeparator where
  | backslash
  | colons

def NameSeparator.text : NameSeparator → Text
  | backslash => "\\"
  | colons => "::"

/-- What stands in a stem for the separator. -/
def NameSeparator.mark : NameSeparator → Text
  | backslash => "@"
  | colons => "@@"

/-- Segments with a separator in front of each but the first. -/
structure SegmentedName where
  first : NameSegment
  rest : List (NameSeparator × NameSegment)

namespace SegmentedName

variable {n m : SegmentedName} {write : NameSeparator → Text}

def written (n : SegmentedName) (write : NameSeparator → Text) : Text :=
  n.first.text ++ n.rest.flatMap fun p => write p.1 ++ p.2.text

def text (n : SegmentedName) : Text := n.written NameSeparator.text

theorem mem_written (h : c ∈ n.written write) :
    (∃ sep, c ∈ write sep) ∨ ∃ segment : NameSegment, c ∈ segment.text := by
  rcases List.mem_append.1 h with h | h
  · exact .inr ⟨n.first, h⟩
  · obtain ⟨p, -, hp⟩ := List.mem_flatMap.1 h
    rcases List.mem_append.1 hp with hp | hp
    · exact .inl ⟨p.1, hp⟩
    · exact .inr ⟨p.2, hp⟩

theorem map_written {f : Char → Char} (hf : ∀ c, isSegmentChar c = true → f c = c) (n : SegmentedName)
    (write : NameSeparator → Text) : (n.written write).map f = n.written fun sep => (write sep).map f := by
  have hsegment : ∀ segment : NameSegment, segment.text.map f = segment.text := fun segment =>
    (List.map_congr_left fun c hc => hf c (segment.chars c hc)).trans (List.map_id _)
  simp only [written, List.map_append, List.map_flatMap, hsegment]

theorem map_stemChar_text (n : SegmentedName) : n.text.map stemChar = n.written NameSeparator.mark := by
  have hkeep : ∀ c, isSegmentChar c = true → stemChar c = c := by
    intro c hc
    refine if_neg ?_
    rintro (rfl | rfl) <;> exact absurd hc (by decide)
  rw [text, map_written hkeep]
  refine congrArg n.written (funext fun sep => ?_)
  cases sep <;> rfl

/-- A single mark is not taken for the first one of two: the character behind it belongs to a segment. -/
theorem replace_mark (segment : NameSegment) (s : Text) :
    Text.replace ['@', '@'] "::" ('@' :: (segment.text ++ s)) =
      '@' :: Text.replace ['@', '@'] "::" (segment.text ++ s) := by
  obtain ⟨c, w, hw⟩ := List.exists_cons_of_ne_nil segment.ne_nil
  have hc : '@' ≠ c := by
    rintro rfl
    exact segment.not_mem (by decide) (hw ▸ List.mem_cons_self)
  rw [hw, List.cons_append, Text.replace, Text.replaceFrom, if_neg (by simp [Text.startsWith, hc])]
  rfl

theorem replace_marks (n : SegmentedName) :
    Text.replace ['@', '@'] "::" (n.written NameSeparator.mark) =
      n.written fun | .backslash => "@" | .colons => "::" := by
  have hsegment : ∀ (segment : NameSegment) (s : Text), Text.replace ['@', '@'] "::" (segment.text ++ s) =
      segment.text ++ Text.replace ['@', '@'] "::" s := fun segment s =>
    Text.replace_append_of_not_mem (segment.not_mem (by decide)) s
  rw [written, written, hsegment]
  congr 1
  induction n.rest with
  | nil => rfl
  | cons p rest ih =>
    obtain ⟨sep, segment⟩ := p
    rw [List.flatMap_cons, List.flatMap_cons, List.append_assoc, List.append_assoc, ← ih, ← hsegment]
    cases sep with
    | backslash => exact replace_mark segment _
    | colons => exact Text.replace_append ['@', '@'] "::" _ (by decide)

/-- A name is read back from its stem. -/
theorem replace_stem (n : SegmentedName) :
    Text.substitute '@' '\\' (Text.replace ['@', '@'] "::" (n.text.map stemChar)) = n.text := by
  have hkeep : ∀ c, isSegmentChar c = true → (if c == '@' then '\\' else c) = c := by
    intro c hc
    refine if_neg fun h => ?_
    rw [beq_iff_eq.1 h] at hc
    exact absurd hc (by decide)
  rw [map_stemChar_text, replace_marks, Text.substitute, map_written hkeep, text]
  refine congrArg n.written (funext fun sep => ?_)
  cases sep <;> rfl

theorem not_mem_text (hsep : ∀ sep, c ∉ NameSeparator.text sep) (hc : isSegmentChar c = false)
    (n : SegmentedName) : c ∉ n.text := fun h => by
  rcases mem_written h with ⟨sep, h⟩ | ⟨segment, h⟩
  · exact hsep sep h
  · exact segment.not_mem hc h

theorem isBlank_text (hc : c ∈ n.text) : Text.isBlank c = false := by
  rcases mem_written hc with ⟨sep, h⟩ | ⟨segment, h⟩
  · cases sep
    · rw [List.mem_singleton.1 h]; decide
    · obtain rfl : c = ':' := by simpa [NameSeparator.text] using h
      decide
  · exact segment.isBlank h

theorem not_isPrefix_text (n : SegmentedName) : ¬ ("\\" : Text) <+: n.text := by
  obtain ⟨c, w, hw⟩ := List.exists_cons_of_ne_nil n.first.ne_nil
  rw [text, written, hw]
  intro h
  obtain rfl : '\\' = c := (List.cons_prefix_cons.1 h).1
  exact n.first.not_mem (c := '\\') (by decide) (hw ▸ List.mem_cons_self)

end SegmentedName

/-! ### Names as they are typed -/

/-- A name, possibly behind a backslash and in front of empty parentheses. -/
structure TypedName where
  rooted : Bool
  name : SegmentedName
  called : Bool

namespace TypedName

def text (p : TypedName) : Text :=
  (if p.rooted then ['\\'] else []) ++ (p.name.text ++ if p.called then ['(', ')'] else [])

theorem bareName_text (p : TypedName) : bareName p.text = p.name.text := by
  refine bareName_affixed (fun c hc => SegmentedName.isBlank_text hc) p.name.not_isPrefix_text ?_ ?_ ?_
  · exact SegmentedName.not_mem_text (fun sep => by cases sep <;> decide) (by decide) p.name
  · cases p.rooted <;> simp
  · cases p.called <;> simp

end TypedName

/-- The stem is the trimmed text without a backslash in front and then without empty parentheses behind, with a
mark for each backslash and for each colon, so that it holds neither. Two typed names have the same stem only if
they differ in nothing but the backslash in front and the parentheses behind. -/
theorem generatorPath_faithful :
    (∀ s, (∃ lead call, Text.trim s = lead ++ (bareName s ++ call) ∧
        (lead = "\\" ∨ lead = [] ∧ ¬ ("\\" : Text) <+: Text.trim s) ∧
        (call = "()" ∨ call = [] ∧ ¬ ("()" : Text) <:+ bareName s)) ∧
      generatorPath s = (bareName s).map (fun c => if c = '\\' ∨ c = ':' then '@' else c) ∧
      '\\' ∉ generatorPath s ∧ ':' ∉ generatorPath s) ∧
    ∀ p q : TypedName, generatorPath p.text = generatorPath q.text ↔ p.name.text = q.name.text := by
  refine ⟨fun s => ⟨exists_affixes s, generatorPath_eq_map s, ?_, ?_⟩, fun p q => ?_⟩
  · rw [generatorPath_eq_map]
    intro h
    obtain ⟨c, -, hc⟩ := List.mem_map.1 h
    exact (stemChar_ne c).1 hc
  · rw [generatorPath_eq_map]
    intro h
    obtain ⟨c, -, hc⟩ := List.mem_map.1 h
    exact (stemChar_ne c).2 hc
  · rw [generatorPath_eq_map, generatorPath_eq_map, p.bareName_text, q.bareName_text]
    constructor
    · intro h
      rw [← p.name.replace_stem, ← q.name.replace_stem, h]
    · exact fun h => by rw [h]

example : generatorPath " \\Full\\FQN:::method()" = "Full@FQN@@@method" := by decide

end GenScope
