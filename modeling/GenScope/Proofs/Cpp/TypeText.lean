import GenScope.Cpp.TypeText
import GenScope.Proofs.Query.QualifiedName

/-!
# Types as they are shown

A type is written with some spelling of integers, tuples and classes. Each of the three rewrites of `prettyType`
changes one of the spellings and leaves the rest of the text alone (`Respells`): what it looks for stands in a
type only as a whole name, because behind every name there is a bracket, a comma or a space (`typeBreaks`). By
induction on the type each rewrite takes one spelling of it to the next (`Respells.carries`), so that together
they take the generated one to the one that is shown (`prettyType_generated`).
-/

namespace GenScope.Cpp

variable {f : Text → Text} {old new lead r s t u w : Text} {c : Char}

/-! ### Types -/

structure ClassSegment where
  text : Text
  ne_nil : text ≠ []
  chars : ∀ c ∈ text, isNameChar c = true
  no_int : ¬ ("int64_t" : Text) <:+: text

inductive ScalarType where
  | int
  | double
  | bool
  | string
  | mixed
  | var
  | void

/-- The types that a variable can have. -/
inductive CppType where
  | scalar (s : ScalarType)
  | array (item : CppType)
  | optional (item : CppType)
  | tuple (items : List CppType)
  | classInstance (first : ClassSegment) (rest : List ClassSegment)

/-- How integers, tuples and classes are written. -/
structure Spelling where
  int : Text
  tuple : Text
  ofClass : List ClassSegment → Text

namespace Spelling

def generated : Spelling :=
  ⟨"int64_t", "std::tuple", fun ss => instanceLead ++ (ss.flatMap ('$' :: ·.text) ++ ['>'])⟩

def shown : Spelling := ⟨"int", "tuple", fun ss => ss.flatMap ('\\' :: ·.text)⟩

end Spelling

def ScalarType.written (sp : Spelling) : ScalarType → Text
  | int => sp.int
  | double => "double"
  | bool => "bool"
  | string => "string"
  | mixed => "mixed"
  | var => "var"
  | void => "void"

namespace CppType

mutual

def written (sp : Spelling) : CppType → Text
  | scalar s => s.written sp
  | array item => "array< " ++ (written sp item ++ " >")
  | optional item => "Optional<" ++ (written sp item ++ ">")
  | tuple items => sp.tuple ++ ("<" ++ (Text.join ", " (writtenItems sp items) ++ ">"))
  | classInstance first rest => sp.ofClass (first :: rest)

def writtenItems (sp : Spelling) : List CppType → List Text
  | [] => []
  | item :: items => written sp item :: writtenItems sp items

end

@[induction_eliminator]
theorem induct {P : CppType → Prop} (scalar : ∀ s, P (scalar s)) (array : ∀ item, P item → P (array item))
    (optional : ∀ item, P item → P (optional item))
    (tuple : ∀ items, (∀ item ∈ items, P item) → P (tuple items))
    (classInstance : ∀ first rest, P (classInstance first rest)) (t : CppType) : P t :=
  @CppType.rec P (fun items => ∀ item ∈ items, P item) scalar array optional tuple classInstance
    (List.forall_mem_nil P) (fun _ _ hitem hitems => List.forall_mem_cons.2 ⟨hitem, hitems⟩) t

/-- The text of the type in generated code. -/
def generated (t : CppType) : Text := t.written .generated

/-- The text of the type for the reader. -/
def shown (t : CppType) : Text := t.written .shown

end CppType

/-! ### Rewrites of texts -/

/-- What stands behind a name in a type. -/
def typeBreaks : List Char := ['<', ' ', ',', '>']

def AtBreak (t : Text) : Prop := ∀ c ∈ t.head?, c ∈ typeBreaks

/-- The rewrite takes the one text, at the end of a name, to the other and goes on behind it. -/
def Carries (f : Text → Text) (u w : Text) : Prop := ∀ t, AtBreak t → f (u ++ t) = w ++ f t

/-- The rewrite leaves the text alone wherever it stands. -/
def Keeps (f : Text → Text) (u : Text) : Prop := ∀ t, f (u ++ t) = u ++ f t

theorem Keeps.carries (h : Keeps f u) : Carries f u u := fun t _ => h t

theorem Carries.append (hu : Carries f u w) (hs : Carries f s r) (hbreak : ∀ t, AtBreak (s ++ t)) :
    Carries f (u ++ s) (w ++ r) := by
  intro t ht
  rw [List.append_assoc, List.append_assoc, hu _ (hbreak t), hs t ht]

theorem Carries.behind (hlead : Keeps f lead) (hs : Carries f s r) : Carries f (lead ++ s) (lead ++ r) := by
  intro t ht
  rw [List.append_assoc, List.append_assoc, hlead, hs t ht]

/-- The names of scalars that have one spelling only. -/
def plainNames : List Text := ["double", "bool", "string", "mixed", "var", "void"]

/-- What stands around the types in a type. -/
def typeMarks : List Text := ["array< ", "Optional<", "<", ", ", " >", ">"]

theorem break_of_typeMarks : ∀ w ∈ typeMarks, ∀ c ∈ w.getLast?, c ∈ typeBreaks := by
  simp [typeMarks, typeBreaks]

/-- The rewrite takes one spelling to another and leaves the rest of a type alone. -/
structure Respells (f : Text → Text) (a b : Spelling) : Prop where
  nil : f [] = []
  int : Carries f a.int b.int
  tuple : Carries f a.tuple b.tuple
  ofClass : ∀ first rest, Carries f (a.ofClass (first :: rest)) (b.ofClass (first :: rest))
  plain : ∀ w ∈ plainNames, Carries f w w
  marks : ∀ w ∈ typeMarks, Keeps f w

namespace Respells

variable {a b : Spelling}

theorem scalar (h : Respells f a b) (s : ScalarType) : Carries f (s.written a) (s.written b) := by
  cases s with
  | int => exact h.int
  | double => exact h.plain "double" (by decide)
  | bool => exact h.plain "bool" (by decide)
  | string => exact h.plain "string" (by decide)
  | mixed => exact h.plain "mixed" (by decide)
  | var => exact h.plain "var" (by decide)
  | void => exact h.plain "void" (by decide)

theorem items (h : Respells f a b) {items : List CppType}
    (hitems : ∀ item ∈ items, Carries f (item.written a) (item.written b)) :
    Carries f (Text.join ", " (CppType.writtenItems a items)) (Text.join ", " (CppType.writtenItems b items)) := by
  induction items with
  | nil => exact fun t _ => rfl
  | cons item items ih =>
    obtain ⟨hitem, hitems⟩ := List.forall_mem_cons.1 hitems
    have ih := ih hitems
    cases items with
    | nil => simpa [CppType.writtenItems] using hitem
    | cons next items =>
      simp only [CppType.writtenItems, Text.join_cons_cons, List.append_assoc] at ih ⊢
      exact hitem.append (.behind (h.marks ", " (by decide)) ih) fun t => by simp [AtBreak, typeBreaks]

/-- A rewrite of the spellings rewrites every type. -/
theorem carries (h : Respells f a b) (type : CppType) : Carries f (type.written a) (type.written b) := by
  have hclose : Carries f ">" ">" := (h.marks ">" (by decide)).carries
  have hspaced : Carries f " >" " >" := (h.marks " >" (by decide)).carries
  induction type with
  | scalar s => exact h.scalar s
  | array item ih =>
    have hitem := ih.append hspaced fun t => by simp [AtBreak, typeBreaks]
    exact .behind (h.marks "array< " (by decide)) hitem
  | optional item ih =>
    have hitem := ih.append hclose fun t => by simp [AtBreak, typeBreaks]
    exact .behind (h.marks "Optional<" (by decide)) hitem
  | tuple items ih =>
    have hitems := (h.items ih).append hclose fun t => by simp [AtBreak, typeBreaks]
    exact h.tuple.append (.behind (h.marks "<" (by decide)) hitems) fun t => by simp [AtBreak, typeBreaks]
  | classInstance first rest => exact h.ofClass first rest

theorem written_eq (h : Respells f a b) (type : CppType) : f (type.written a) = type.written b := by
  have hend := h.carries type [] (by simp [AtBreak])
  rwa [h.nil, List.append_nil, List.append_nil] at hend

end Respells

/-! ### Class instances -/

theorem shortenInstancesFrom_skip (s : Text) (n : Nat) : shortenInstancesFrom n s = shortenInstances (s.drop n) := by
  induction s generalizing n with
  | nil => cases n <;> simp [shortenInstances, shortenInstancesFrom]
  | cons c s ih =>
    cases n with
    | zero => rfl
    | succ n => simpa [shortenInstancesFrom] using ih n

/-- A class instance starts with a letter that no other part of a type holds. -/
theorem shortenInstances_append_of_not_mem (h : 'c' ∉ u) (t : Text) :
    shortenInstances (u ++ t) = u ++ shortenInstances t := by
  induction u with
  | nil => rfl
  | cons c u ih =>
    obtain ⟨hc, hu⟩ := not_or.1 (mt List.mem_cons.2 h)
    have hnone : Text.after? instanceLead (c :: (u ++ t)) = none :=
      Text.after?_eq_none_iff.2 fun hp => hc (List.cons_prefix_cons.1 hp).1
    have ih := ih hu
    unfold shortenInstances at ih ⊢
    rw [List.cons_append, shortenInstancesFrom, hnone, Option.bind_none, ih, List.cons_append]

theorem instanceClass?_append {c : Char} {s : Text} (h : ∀ d ∈ c :: s, d ≠ '>' ∧ d ≠ '\n') (t : Text) :
    instanceClass? ('$' :: c :: s ++ '>' :: t) = some ('$' :: c :: s) := by
  have hmore : (s ++ '>' :: t).takeWhile (fun d => d != '>' && d != '\n') = s := by
    rw [List.takeWhile_append_of_pos fun d hd => by simpa using h d (List.mem_cons_of_mem c hd)]
    simp
  have hend : (s ++ '>' :: t)[s.length]? = some '>' := by simp
  show instanceClass? ('$' :: c :: (s ++ '>' :: t)) = _
  simp only [instanceClass?, hmore]
  rw [if_pos ⟨(h c List.mem_cons_self).2, hend⟩]

theorem shortenInstances_instance {c : Char} {s : Text} (h : ∀ d ∈ c :: s, d ≠ '>' ∧ d ≠ '\n') (t : Text) :
    shortenInstances (instanceLead ++ ('$' :: c :: s ++ '>' :: t)) =
      Text.substitute '$' '\\' ('$' :: c :: s) ++ shortenInstances t := by
  have hafter : (Text.after? instanceLead (instanceLead ++ ('$' :: c :: s ++ '>' :: t))).bind instanceClass? =
      some ('$' :: c :: s) := by
    rw [Text.after?_append, Option.bind_some, instanceClass?_append h]
  obtain ⟨d, lead, hlead⟩ := List.exists_cons_of_ne_nil (by decide : instanceLead ≠ [])
  have hskip : (lead ++ ('$' :: c :: s ++ '>' :: t)).drop (instanceLead.length + ('$' :: c :: s).length) = t := by
    have hlen : instanceLead.length + ('$' :: c :: s).length = (lead ++ ('$' :: c :: s ++ ['>'])).length := by
      simp [hlead]
      omega
    have hsplit : lead ++ ('$' :: c :: s ++ '>' :: t) = lead ++ ('$' :: c :: s ++ ['>']) ++ t := by simp
    rw [hlen, hsplit, List.drop_left]
  have hcons : instanceLead ++ ('$' :: c :: s ++ '>' :: t) = d :: (lead ++ ('$' :: c :: s ++ '>' :: t)) := by
    rw [hlead]
    rfl
  rw [hcons] at hafter ⊢
  rw [shortenInstances, shortenInstancesFrom, hafter]
  dsimp only
  rw [shortenInstancesFrom_skip, hskip]

/-! ### Classes -/

theorem ClassSegment.not_mem (s : ClassSegment) (hc : isNameChar c = false) : c ∉ s.text := fun h => by
  simp [s.chars c h] at hc

theorem substitute_segments (ss : List ClassSegment) :
    Text.substitute '$' '\\' (ss.flatMap ('$' :: ·.text)) = ss.flatMap ('\\' :: ·.text) := by
  induction ss with
  | nil => rfl
  | cons s ss ih =>
    have hsegment : Text.substitute '$' '\\' s.text = s.text := Text.substitute_of_not_mem (s.not_mem (by decide))
    have hmark : Text.substitute '$' '\\' ('$' :: s.text) = '\\' :: s.text := congrArg ('\\' :: ·) hsegment
    rw [List.flatMap_cons, List.flatMap_cons, Text.substitute_append, hmark, ih]

theorem shortenInstances_ofClass (first : ClassSegment) (rest : List ClassSegment) (t : Text) :
    shortenInstances (Spelling.generated.ofClass (first :: rest) ++ t) =
      Spelling.shown.ofClass (first :: rest) ++ shortenInstances t := by
  obtain ⟨c, w, hw⟩ := List.exists_cons_of_ne_nil first.ne_nil
  have hclass : (first :: rest).flatMap ('$' :: ·.text) = '$' :: c :: (w ++ rest.flatMap ('$' :: ·.text)) := by
    rw [List.flatMap_cons, hw]
    rfl
  have hchars : ∀ d ∈ (first :: rest).flatMap ('$' :: ·.text), d ≠ '>' ∧ d ≠ '\n' := by
    intro d hd
    obtain ⟨s, -, hd⟩ := List.mem_flatMap.1 hd
    rcases List.mem_cons.1 hd with rfl | hd
    · decide
    · constructor <;> rintro rfl <;> exact s.not_mem (by decide) hd
  have hinstance := shortenInstances_instance (fun d hd => hchars d (hclass ▸ List.mem_cons_of_mem _ hd)) t
  rw [← hclass, substitute_segments] at hinstance
  have hend : Spelling.generated.ofClass (first :: rest) ++ t =
      instanceLead ++ ((first :: rest).flatMap ('$' :: ·.text) ++ '>' :: t) := by
    show instanceLead ++ ((first :: rest).flatMap ('$' :: ·.text) ++ ['>']) ++ t = _
    rw [List.append_assoc, List.append_assoc, List.singleton_append]
  rw [hend, hinstance]
  rfl

theorem respells_shortenInstances :
    Respells shortenInstances .generated ⟨"int64_t", "std::tuple", Spelling.shown.ofClass⟩ := by
  have hkeeps : ∀ u, 'c' ∉ u → Keeps shortenInstances u := fun u hu => shortenInstances_append_of_not_mem hu
  refine ⟨rfl, (hkeeps _ (by decide)).carries, (hkeeps _ (by decide)).carries,
    fun first rest t _ => shortenInstances_ofClass first rest t, fun w hw => (hkeeps w ?_).carries,
    fun w hw => hkeeps w ?_⟩
  · revert w
    decide
  · revert w
    decide

/-! ### Names -/

theorem not_infix_of_occursIn (h : Text.occursIn old w = false) : ¬ old <:+: w := fun hinfix => by
  rw [Text.occursIn_iff.2 hinfix] at h
  cases h

section Replace

variable (hne : old ≠ []) (hbreaks : ∀ c ∈ typeBreaks, c ∉ old)

include hbreaks

theorem carries_replace (hw : Text.occursIn old w = false) : Carries (Text.replace old new) w w := fun _ ht =>
  Text.replace_append_of_not_infix (not_infix_of_occursIn hw) fun c hc => hbreaks c (ht c hc)

include hne

theorem keeps_replace (hw : Text.occursIn old w = false) (hlast : ∀ c ∈ w.getLast?, c ∈ typeBreaks) :
    Keeps (Text.replace old new) w := by
  intro t
  have hw := not_infix_of_occursIn hw
  rcases List.eq_nil_or_concat w with rfl | ⟨u, c, rfl⟩
  · rfl
  · rw [List.concat_eq_append] at hw hlast ⊢
    have hc : c ∉ old := hbreaks c (hlast c (by simp))
    have hu : ¬ old <:+: u := fun h => hw (h.trans (List.infix_append_left ..))
    rw [List.append_assoc, List.append_assoc, List.singleton_append, List.singleton_append,
      Text.replace_append_of_not_infix hu (by simpa using hc), Text.replace_cons_of_not_mem hne hc]

theorem carries_replace_ofClass (hslash : '\\' ∉ old) (hsegment : ∀ s : ClassSegment, ¬ old <:+: s.text)
    (ss : List ClassSegment) :
    Carries (Text.replace old new) (Spelling.shown.ofClass ss) (Spelling.shown.ofClass ss) := by
  induction ss with
  | nil => exact fun t _ => rfl
  | cons s ss ih =>
    intro t ht
    have hrest : ∀ c ∈ (Spelling.shown.ofClass ss ++ t).head?, c ∉ old := by
      cases ss with
      | nil => exact fun c hc => hbreaks c (ht c hc)
      | cons s ss => simpa [Spelling.shown] using hslash
    have hcons : Spelling.shown.ofClass (s :: ss) ++ t = '\\' :: (s.text ++ (Spelling.shown.ofClass ss ++ t)) := by
      simp [Spelling.shown]
    rw [hcons, Text.replace_cons_of_not_mem hne hslash, Text.replace_append_of_not_infix (hsegment s) hrest,
      ih t ht]
    simp [Spelling.shown]

end Replace

theorem respells_int : Respells (Text.replace "int64_t" "int")
    ⟨"int64_t", "std::tuple", Spelling.shown.ofClass⟩ ⟨"int", "std::tuple", Spelling.shown.ofClass⟩ := by
  have hne : ("int64_t" : Text) ≠ [] := by decide
  have hbreaks : ∀ c ∈ typeBreaks, c ∉ ("int64_t" : Text) := by simp [typeBreaks]
  refine ⟨rfl, fun t _ => Text.replace_append _ _ t hne, carries_replace hbreaks (by decide +kernel),
    fun first rest => carries_replace_ofClass hne hbreaks (by decide) (fun s => s.no_int) _,
    fun w hw => carries_replace hbreaks ?_, fun w hw => keeps_replace hne hbreaks ?_ (break_of_typeMarks w hw)⟩
  · revert w
    decide
  · revert w
    decide

theorem respells_tuple : Respells (Text.replace "std::tuple" "tuple")
    ⟨"int", "std::tuple", Spelling.shown.ofClass⟩ .shown := by
  have hne : ("std::tuple" : Text) ≠ [] := by decide
  have hbreaks : ∀ c ∈ typeBreaks, c ∉ ("std::tuple" : Text) := by simp [typeBreaks]
  have hsegment : ∀ s : ClassSegment, ¬ ("std::tuple" : Text) <:+: s.text := fun s h =>
    s.not_mem (c := ':') (by decide) (h.subset (by decide))
  refine ⟨rfl, carries_replace hbreaks (by decide +kernel), fun t _ => Text.replace_append _ _ t hne,
    fun first rest => carries_replace_ofClass hne hbreaks (by decide) hsegment _,
    fun w hw => carries_replace hbreaks ?_, fun w hw => keeps_replace hne hbreaks ?_ (break_of_typeMarks w hw)⟩
  · revert w
    decide
  · revert w
    decide

/-- A type is shown with the same structure: classes by their names, integers and tuples by short ones. -/
theorem prettyType_generated (type : CppType) : prettyType type.generated = type.shown := by
  unfold prettyType CppType.generated CppType.shown
  rw [respells_shortenInstances.written_eq, respells_int.written_eq, respells_tuple.written_eq]

example : prettyType "std::tuple<int64_t, array< class_instance<C$VK$Post> >, Optional<string>>" =
    "tuple<int, array< \\VK\\Post >, Optional<string>>" := by
  decide +kernel

end GenScope.Cpp
