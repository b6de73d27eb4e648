import GenScope.Cpp.Field
import GenScope.Proofs.Query.QualifiedName
import GenScope.Proofs.Text.Fragment

/-!
# Class headers

A header with the lines that the generator writes for a class (`ClassHeader.text`). The name of the
class is read back from it (`className?_text`), and so are its fields, in their order and no others
(`fields_text`). Both searches go from line to line: what one finds on a line depends on the line
and, as white space may be a line end, on how the next line starts.
-/

namespace GenScope.Cpp

open Text (isBlank isWordChar isIdentChar)

/-- The parts of a line that declares a field. -/
structure FieldLine where
  type : Text
  name : Text
  init : Text
deriving DecidableEq, Repr

namespace FieldLine

/-- The line up to the opening brace. -/
def head (f : FieldLine) : Text := ' ' :: ' ' :: (f.type ++ ' ' :: '$' :: (f.name ++ ['{']))

def text (f : FieldLine) : Text := f.head ++ f.init ++ ['}', ';']

/-- The parts stay on the line, the name is a word, and the type does not hold the start of a name. -/
structure WellFormed (f : FieldLine) : Prop where
  type_ne : f.type ≠ []
  type_line : '\n' ∉ f.type
  type_plain : ∀ u b v, f.type = u ++ b :: '$' :: v → isBlank b = false
  name_ne : f.name ≠ []
  name_word : ∀ c ∈ f.name, isWordChar c = true
  init_line : '\n' ∉ f.init

end FieldLine

/-- A line of a class declares a field, or it is any other line. -/
inductive MemberLine where
  | field (f : FieldLine)
  | other (line : Text)
deriving DecidableEq, Repr

namespace MemberLine

def text : MemberLine → Text
  | field f => f.text
  | other line => line

def declared? : MemberLine → Option Variable
  | field f => some ⟨f.name, f.type⟩
  | other _ => none

/-- A line that declares no field neither looks like one nor like the rest of one. -/
def WellFormed : MemberLine → Prop
  | field f => f.WellFormed
  | other line => '\n' ∉ line ∧ line.head? ≠ some '$' ∧ (("  " : Text) <+: line → '$' ∉ line)

end MemberLine

/-- A class header: lines, the line of the declaration, and the lines of the class. -/
structure ClassHeader where
  name : QualifiedName
  before : List Text
  /-- What stands behind the identifier on the line of the declaration. -/
  rest : Text
  members : List MemberLine

namespace ClassHeader

def declaration (h : ClassHeader) : Text := "struct C$" ++ (h.name.mangled ++ h.rest)

/-- The lines between line ends. A line end behind the last one makes an empty line of it. -/
def text (h : ClassHeader) : Text :=
  (h.before.flatMap fun line => line ++ ['\n']) ++
    (h.declaration ++ h.members.flatMap fun m => '\n' :: m.text)

/-- The fields that the header is to declare. -/
def fields (h : ClassHeader) : List Variable := h.members.filterMap MemberLine.declared?

/-- The name is that of a class, nothing continues it on its line, and no line before looks like a
declaration or a field. -/
structure WellFormed (h : ClassHeader) : Prop where
  name : h.name.OfWords
  isClass : h.name.method = none
  before : ∀ line ∈ h.before, '\n' ∉ line ∧ ¬ ("struct" : Text) <+: line ∧ ¬ ("  " : Text) <+: line
  rest_line : '\n' ∉ h.rest
  rest_head : ∀ c, h.rest.head? = some c → isIdentChar c = false
  members : ∀ m ∈ h.members, m.WellFormed

end ClassHeader

theorem skip_lines {β : Type} {read : Text → β} {lines : List Text}
    (hskip : ∀ line ∈ lines, ∀ s, read (line ++ '\n' :: s) = read s) (s : Text) :
    read ((lines.flatMap fun line => line ++ ['\n']) ++ s) = read s := by
  induction lines with
  | nil => rfl
  | cons line lines ih =>
    obtain ⟨hline, hlines⟩ := List.forall_mem_cons.1 hskip
    rw [List.flatMap_cons, List.append_assoc, List.append_assoc, List.singleton_append, hline, ih hlines]

/-! ### The name -/

theorem classAtLine?_eq_none {s : Text} (h : ¬ ("struct" : Text) <+: s) : classAtLine? s = none := by
  rw [classAtLine?, Text.after?_eq_none_iff.2 h]

theorem classFrom?_line {u : Text} (hu : '\n' ∉ u) (s : Text) :
    classFrom? false (u ++ '\n' :: s) = classFrom? true s := by
  induction u with
  | nil => rfl
  | cons c u ih =>
    obtain ⟨hc, hu⟩ : '\n' ≠ c ∧ '\n' ∉ u := by simpa using hu
    rw [List.cons_append, classFrom?, beq_false_of_ne hc.symm, ih hu]
    rfl

theorem classFrom?_eq_some {name s : Text} (h : classAtLine? s = some name) : classFrom? true s = some name := by
  cases s with
  | nil => cases h
  | cons c s =>
    rw [classFrom?, if_pos rfl, h]
    rfl

theorem classFrom?_skip {line : Text} (hline : '\n' ∉ line) (h : ¬ ("struct" : Text) <+: line) (s : Text) :
    classFrom? true (line ++ '\n' :: s) = classFrom? true s := by
  have hnone : classAtLine? (line ++ '\n' :: s) = none :=
    classAtLine?_eq_none fun hp => h (Text.isPrefix_of_isPrefix_append_cons (by decide) hp)
  cases line with
  | nil =>
    rw [List.nil_append] at hnone
    rw [List.nil_append, classFrom?, if_pos rfl, hnone]
    rfl
  | cons c line =>
    obtain ⟨hc, hline⟩ : '\n' ≠ c ∧ '\n' ∉ line := by simpa using hline
    rw [List.cons_append] at hnone
    rw [List.cons_append, classFrom?, if_pos rfl, hnone, beq_false_of_ne hc.symm, classFrom?_line hline]
    rfl

theorem classAtLine?_declaration {name rest : Text} (hne : name ≠ []) (hname : ∀ c ∈ name, isIdentChar c = true)
    (hrest : ∀ c, rest.head? = some c → isIdentChar c = false) :
    classAtLine? ("struct C$" ++ (name ++ rest)) = some name := by
  have hstruct : Text.after? "struct" ("struct C$" ++ (name ++ rest)) = some (' ' :: ("C$" ++ (name ++ rest))) :=
    Text.after?_append "struct" _
  have hmark : Text.after? "C$" ("C$" ++ (name ++ rest)) = some (name ++ rest) := Text.after?_append ..
  have htake : (name ++ rest).takeWhile isIdentChar = name := by
    rw [List.takeWhile_append_of_pos hname]
    cases rest with
    | nil => simp
    | cons c rest => simp [hrest c rfl]
  obtain ⟨c, name, rfl⟩ := List.exists_cons_of_ne_nil hne
  have hblank : isBlank ' ' = true := by decide
  simp only [classAtLine?, hstruct, hblank, if_true, hmark, Option.map_some, htake]

namespace ClassHeader

variable {h : ClassHeader}

theorem WellFormed.mangled_ident (hw : h.WellFormed) : ∀ c ∈ h.name.mangled, isIdentChar c = true :=
  hw.name.forall_written (by decide) (by simp; decide) fun _ hc =>
    Text.isIdentChar_of_isWordChar (isWordChar_of_isNameChar hc)

theorem demangleClass_mangled (hname : h.name.OfWords) (hclass : h.name.method = none) :
    demangleClass h.name.mangled = h.name.text := by
  have hmark : ∀ sep : Char, ∀ mark : Text, h.name.written sep mark = h.name.written sep [] := by
    intro sep mark
    simp [QualifiedName.written, hclass]
  rw [demangleClass, QualifiedName.mangled, QualifiedName.text, hmark, hmark '\\',
    hname.substitute_written (by decide) (by simp)]

theorem WellFormed.className?_text (hw : h.WellFormed) : className? h.text = some h.name.text := by
  have hne : h.name.mangled ≠ [] := by
    obtain ⟨c, s, hs, -⟩ := hw.name.written_eq_cons '$' "$$"
    rw [QualifiedName.mangled, hs]
    simp
  -- behind the identifier stands the rest of its line, or a line end
  have hrest : ∀ c, (h.rest ++ h.members.flatMap fun m => '\n' :: m.text).head? = some c →
      isIdentChar c = false := by
    intro c hc
    cases hr : h.rest with
    | cons d rest => exact hw.rest_head c (by simpa [hr] using hc)
    | nil =>
      cases hm : h.members with
      | nil => simp [hr, hm] at hc
      | cons m members =>
        obtain rfl : '\n' = c := by simpa [hr, hm] using hc
        decide
  have hstart : classFrom? true (h.declaration ++ h.members.flatMap fun m => '\n' :: m.text) =
      some h.name.mangled := by
    unfold declaration
    simp only [List.append_assoc]
    exact classFrom?_eq_some (classAtLine?_declaration hne hw.mangled_ident hrest)
  have hbefore : ∀ line ∈ h.before, ∀ s, classFrom? true (line ++ '\n' :: s) = classFrom? true s := by
    intro line hline
    obtain ⟨hends, hstruct, -⟩ := hw.before line hline
    exact classFrom?_skip hends hstruct
  rw [className?, text, skip_lines hbefore, hstart, Option.map_some, demangleClass_mangled hw.name hw.isClass]

end ClassHeader

/-! ### Fields -/

/-- What can stand behind a line: nothing, or a line end and a line that does not start like a name
of a field. -/
def EndsLine (s : Text) : Prop := s = [] ∨ ∃ next, s = '\n' :: next ∧ next.head? ≠ some '$'

theorem fieldName?_name {name : Text} (hne : name ≠ []) (hname : ∀ c ∈ name, isWordChar c = true) (s : Text) :
    fieldName? (' ' :: '$' :: (name ++ '{' :: s)) = some (name, name.length + 3) := by
  have hbrace : isWordChar '{' = false := by decide
  have htake : (name ++ '{' :: s).takeWhile isWordChar = name := by
    rw [List.takeWhile_append_of_pos hname, List.takeWhile_cons_of_neg (by simp [hbrace]), List.append_nil]
  have hdrop : (name ++ '{' :: s).dropWhile isWordChar = '{' :: s := by
    rw [List.dropWhile_append_of_pos hname, List.dropWhile_cons_of_neg (by simp [hbrace])]
  obtain ⟨c, name, rfl⟩ := List.exists_cons_of_ne_nil hne
  have hblank : isBlank ' ' = true := by decide
  simp only [fieldName?, hblank, if_true, htake, hdrop]
  rfl

theorem fieldName?_eq_none {b c : Char} {s : Text} (h : isBlank b = true → c ≠ '$') :
    fieldName? (b :: c :: s) = none := by
  unfold fieldName?
  split
  · rename_i heq
    obtain ⟨rfl, rfl, rfl⟩ : b = _ ∧ c = '$' ∧ s = _ := by simpa using heq
    rw [if_neg fun hb => h hb rfl]
  · rfl

theorem fieldBody?_name {type name : Text} (htype : type ≠ []) (hline : '\n' ∉ type)
    (hplain : ∀ u b v, type = u ++ b :: '$' :: v → isBlank b = false) (hne : name ≠ [])
    (hname : ∀ c ∈ name, isWordChar c = true) (s : Text) :
    fieldBody? (type ++ ' ' :: '$' :: (name ++ '{' :: s)) =
      some (⟨name, type⟩, type.length + name.length + 3) := by
  induction type with
  | nil => exact absurd rfl htype
  | cons c type ih =>
    obtain ⟨hc, hline⟩ : '\n' ≠ c ∧ '\n' ∉ type := by simpa using hline
    rw [List.cons_append, fieldBody?, beq_false_of_ne hc.symm, if_neg Bool.false_ne_true]
    cases type with
    | nil =>
      rw [List.nil_append, fieldName?_name hne hname]
      simp only [List.length_singleton, Option.some.injEq, Prod.mk.injEq, true_and]
      omega
    | cons b type =>
      -- no name starts within the type
      have hnone : fieldName? (b :: type ++ ' ' :: '$' :: (name ++ '{' :: s)) = none := by
        cases type with
        | nil => exact fieldName?_eq_none fun _ => by decide
        | cons d type =>
          refine fieldName?_eq_none fun hb hd => ?_
          subst hd
          simp [hplain [c] b type rfl] at hb
      rw [hnone, ih (by simp) hline fun u b' v heq => hplain (c :: u) b' v (by rw [heq]; rfl)]
      simp only [Option.map_some, Option.some.injEq, Prod.mk.injEq, true_and, List.length_cons]
      omega

/-- A line without a dollar sign has no field, even if white space goes on to the next line. -/
theorem fieldBody?_eq_none {line s : Text} (hline : '$' ∉ line) (hs : EndsLine s) :
    fieldBody? (line ++ s) = none := by
  induction line with
  | nil =>
    rcases hs with rfl | ⟨next, rfl, -⟩
    · rfl
    · rfl
  | cons c line ih =>
    obtain ⟨-, hline⟩ : '$' ≠ c ∧ '$' ∉ line := by simpa using hline
    have hname : fieldName? (line ++ s) = none := by
      match line with
      | b :: d :: line =>
        refine fieldName?_eq_none fun _ hd => ?_
        subst hd
        simp at hline
      | [b] =>
        rcases hs with rfl | ⟨next, rfl, -⟩
        · rfl
        · exact fieldName?_eq_none fun _ => by decide
      | [] =>
        rcases hs with rfl | ⟨next, rfl, hnext⟩
        · rfl
        · cases next with
          | nil => rfl
          | cons d next => exact fieldName?_eq_none fun _ hd => hnext (by simp [hd])
    rw [List.cons_append, fieldBody?, hname, ih hline]
    simp

theorem fieldAtLine?_eq_none {s : Text} (h : ¬ ("  " : Text) <+: s) : fieldAtLine? s = none := by
  rw [fieldAtLine?, Text.after?_eq_none_iff.2 h]
  rfl

theorem fieldAtLine?_other {line s : Text} (hs : EndsLine s) (h : ("  " : Text) <+: line → '$' ∉ line) :
    fieldAtLine? (line ++ s) = none := by
  by_cases hp : ("  " : Text) <+: line ++ s
  · have hindent : ("  " : Text) <+: line := by
      rcases hs with rfl | ⟨next, rfl, -⟩
      · simpa using hp
      · exact Text.isPrefix_of_isPrefix_append_cons (by decide) hp
    obtain ⟨rest, rfl⟩ := hindent
    have hrest : '$' ∉ rest := fun hm => h (List.prefix_append ..) (List.mem_append_right _ hm)
    rw [fieldAtLine?, List.append_assoc, Text.after?_append, Option.bind_some, fieldBody?_eq_none hrest hs]
    rfl
  · exact fieldAtLine?_eq_none hp

theorem fieldsFrom_line {u s : Text} (hu : '\n' ∉ u) : fieldsFrom 0 false (u ++ s) = fieldsFrom 0 false s := by
  induction u with
  | nil => rfl
  | cons c u ih =>
    obtain ⟨hc, hu⟩ : '\n' ≠ c ∧ '\n' ∉ u := by simpa using hu
    rw [List.cons_append, fieldsFrom, beq_false_of_ne hc.symm]
    exact ih hu

theorem fieldsFrom_skip {u : Text} (hu : '\n' ∉ u) (s : Text) :
    fieldsFrom u.length false (u ++ s) = fieldsFrom 0 false s := by
  induction u with
  | nil => rfl
  | cons c u ih =>
    obtain ⟨hc, hu⟩ : '\n' ≠ c ∧ '\n' ∉ u := by simpa using hu
    rw [List.cons_append, List.length_cons, fieldsFrom, beq_false_of_ne hc.symm, ih hu]

theorem fieldsFrom_found {u s : Text} {v : Variable} (hne : u ≠ []) (hu : '\n' ∉ u)
    (h : fieldAtLine? (u ++ s) = some (v, u.length)) :
    fieldsFrom 0 true (u ++ s) = v :: fieldsFrom 0 false s := by
  obtain ⟨c, u, rfl⟩ := List.exists_cons_of_ne_nil hne
  obtain ⟨-, hu⟩ : '\n' ≠ c ∧ '\n' ∉ u := by simpa using hu
  rw [List.cons_append] at h
  rw [List.cons_append, fieldsFrom, if_pos rfl, h]
  exact congrArg (v :: ·) (fieldsFrom_skip hu s)

theorem fieldsFrom_of_none {line s : Text} (hline : '\n' ∉ line) (hnone : fieldAtLine? (line ++ s) = none)
    (hs : s = [] ∨ ∃ next, s = '\n' :: next) : fieldsFrom 0 true (line ++ s) = fieldsFrom 0 false s := by
  cases line with
  | nil =>
    rcases hs with rfl | ⟨next, rfl⟩
    · rfl
    · rw [List.nil_append] at hnone
      rw [List.nil_append, fieldsFrom, if_pos rfl, hnone]
      rfl
  | cons c line =>
    obtain ⟨hc, hline⟩ : '\n' ≠ c ∧ '\n' ∉ line := by simpa using hline
    rw [List.cons_append] at hnone
    rw [List.cons_append, fieldsFrom, if_pos rfl, hnone, beq_false_of_ne hc.symm]
    exact fieldsFrom_line hline

theorem fieldsFrom_other {line s : Text} (hs : EndsLine s) (hline : '\n' ∉ line)
    (h : ("  " : Text) <+: line → '$' ∉ line) : fieldsFrom 0 true (line ++ s) = fieldsFrom 0 false s := by
  refine fieldsFrom_of_none hline (fieldAtLine?_other hs h) ?_
  rcases hs with rfl | ⟨next, rfl, -⟩
  · exact .inl rfl
  · exact .inr ⟨next, rfl⟩

theorem fieldsFrom_skipLine {line : Text} (hline : '\n' ∉ line) (h : ¬ ("  " : Text) <+: line) (s : Text) :
    fieldsFrom 0 true (line ++ '\n' :: s) = fieldsFrom 0 true s := by
  have hnone : fieldAtLine? (line ++ '\n' :: s) = none :=
    fieldAtLine?_eq_none fun hp => h (Text.isPrefix_of_isPrefix_append_cons (by decide) hp)
  exact fieldsFrom_of_none hline hnone (.inr ⟨s, rfl⟩)

namespace FieldLine

variable {f : FieldLine}

theorem WellFormed.fieldAtLine?_head (h : f.WellFormed) (s : Text) :
    fieldAtLine? (f.head ++ s) = some (⟨f.name, f.type⟩, f.head.length) := by
  have hhead : f.head ++ s = "  " ++ (f.type ++ ' ' :: '$' :: (f.name ++ '{' :: s)) := by simp [head]
  have hlength : f.head.length = f.type.length + f.name.length + 3 + 2 := by
    simp [head]
    omega
  rw [hhead, fieldAtLine?, Text.after?_append, Option.bind_some,
    fieldBody?_name h.type_ne h.type_line h.type_plain h.name_ne h.name_word, hlength]
  rfl

theorem WellFormed.fieldsFrom_text (h : f.WellFormed) (s : Text) :
    fieldsFrom 0 true (f.text ++ s) = ⟨f.name, f.type⟩ :: fieldsFrom 0 false s := by
  have hname : '\n' ∉ f.name := fun hm => absurd (h.name_word _ hm) (by decide)
  have hhead : '\n' ∉ f.head := by simp [head, h.type_line, hname]
  rw [text, List.append_assoc, List.append_assoc, fieldsFrom_found (by simp [head]) hhead (h.fieldAtLine?_head _),
    ← List.append_assoc, fieldsFrom_line (by simp [h.init_line])]

end FieldLine

namespace MemberLine

variable {m : MemberLine}

theorem WellFormed.fieldsFrom_text (h : m.WellFormed) {s : Text} (hs : EndsLine s) :
    fieldsFrom 0 true (m.text ++ s) = m.declared?.toList ++ fieldsFrom 0 false s := by
  cases m with
  | field f => exact FieldLine.WellFormed.fieldsFrom_text h s
  | other line =>
    obtain ⟨hline, -, hindent⟩ := h
    exact fieldsFrom_other hs hline hindent

theorem WellFormed.head_ne (h : m.WellFormed) {s : Text} (hs : s.head? ≠ some '$') :
    (m.text ++ s).head? ≠ some '$' := by
  cases m with
  | field f => simp [text, FieldLine.text, FieldLine.head]
  | other line =>
    cases line with
    | nil => exact hs
    | cons c line => exact h.2.1

end MemberLine

theorem fieldsFrom_members {members : List MemberLine} (h : ∀ m ∈ members, m.WellFormed) :
    EndsLine (members.flatMap fun m => '\n' :: m.text) ∧
      fieldsFrom 0 false (members.flatMap fun m => '\n' :: m.text) = members.filterMap MemberLine.declared? := by
  induction members with
  | nil => exact ⟨.inl rfl, rfl⟩
  | cons m members ih =>
    obtain ⟨hm, hmembers⟩ := List.forall_mem_cons.1 h
    obtain ⟨hends, hfields⟩ := ih hmembers
    have hhead : (members.flatMap fun m => '\n' :: m.text).head? ≠ some '$' := by
      rcases hends with hnil | ⟨next, hnext, -⟩
      · simp [hnil]
      · simp [hnext]
    refine ⟨.inr ⟨_, rfl, hm.head_ne hhead⟩, ?_⟩
    rw [List.flatMap_cons, List.cons_append, fieldsFrom]
    show fieldsFrom 0 true (m.text ++ _) = _
    rw [hm.fieldsFrom_text hends, hfields]
    cases hd : m.declared? with
    | none => simp [hd]
    | some v => simp [hd]

namespace ClassHeader

variable {h : ClassHeader}

/-- The fields of the class are read back, and nothing else is taken for one. -/
theorem WellFormed.fields_text (hw : h.WellFormed) : Cpp.fields h.text = h.fields := by
  obtain ⟨hends, hfields⟩ := fieldsFrom_members hw.members
  have hbefore : ∀ line ∈ h.before, ∀ s, fieldsFrom 0 true (line ++ '\n' :: s) = fieldsFrom 0 true s := by
    intro line hline
    obtain ⟨hends, -, hindent⟩ := hw.before line hline
    exact fieldsFrom_skipLine hends hindent
  have hdeclaration : '\n' ∉ h.declaration := by
    have hmangled : '\n' ∉ h.name.mangled := fun hm => absurd (hw.mangled_ident _ hm) (by decide)
    unfold declaration
    simp [hmangled, hw.rest_line]
  have hindent : ¬ ("  " : Text) <+: h.declaration := by
    intro hp
    exact absurd (List.cons_prefix_cons.1 hp).1 (by decide)
  rw [Cpp.fields, text, skip_lines hbefore, fieldsFrom_other hends hdeclaration fun hp => absurd hp hindent,
    hfields, fields]

end ClassHeader

end GenScope.Cpp
