import GenScope.MangledName
import GenScope.Proofs.Text.CharClass
import GenScope.Proofs.Text.Join
import GenScope.Query

/-!
# Qualified names of functions

A qualified name has segments and possibly a method. The query language, the generated identifiers
and the generated file names write it with separators of their own. A stem is the bare name with a mark
in place of every backslash and of every colon (`generatorPath_eq_map`), so that the name gives the stem of
its file (`generatorPath_query`), and two names whose stems differ in case at most are themselves such
(`lower_text_eq_of_lower_stem_eq`).
-/

namespace GenScope

open Text (isBlank isWordChar isIdentChar)

/-- An ASCII letter, a digit or an underscore. -/
def isNameChar (c : Char) : Bool := c.isAlphanum || c == '_'

theorem toNat_lt_of_isNameChar {c : Char} (h : isNameChar c = true) : c.toNat < 128 := by
  rcases Bool.or_eq_true_iff.1 h with h | h
  · simp only [Char.isAlphanum, Char.isAlpha, Char.isUpper, Char.isLower, Char.isDigit, Bool.or_eq_true,
      Bool.and_eq_true, decide_eq_true_eq, UInt32.le_iff_toNat_le] at h
    simp only [Char.toNat]
    rcases h with ((⟨-, h⟩ | ⟨-, h⟩) | ⟨-, h⟩) <;> exact Nat.lt_of_le_of_lt h (by decide)
  · rw [beq_iff_eq.1 h]; decide

theorem isWordChar_of_isNameChar {c : Char} (h : isNameChar c = true) : isWordChar c = true := by
  have hlt := toNat_lt_of_isNameChar h
  simpa [isWordChar, Text.isAlphanumeric, hlt, isNameChar] using h

theorem isNameChar_toLower {c : Char} (h : isNameChar c = true) : isNameChar c.toLower = true := by
  have hall : ∀ n : Fin 128, isNameChar (Char.ofNat n) = true →
      isNameChar (Char.ofNat n).toLower = true := by decide
  simpa [Char.ofNat_toNat] using hall ⟨c.toNat, toNat_lt_of_isNameChar h⟩ (by simpa [Char.ofNat_toNat] using h)

theorem bareName_affixed {t lead call : Text} (hblank : ∀ c ∈ t, isBlank c = false)
    (hslash : ¬ ("\\" : Text) <+: t) (hparen : ')' ∉ t) (hlead : lead = [] ∨ lead = "\\")
    (hcall : call = [] ∨ call = "()") : bareName (lead ++ (t ++ call)) = t := by
  have htrim : Text.trim (lead ++ (t ++ call)) = lead ++ (t ++ call) := by
    refine Text.trim_of_forall fun c hc => ?_
    rcases List.mem_append.1 hc with hc | hc
    · rcases hlead with rfl | rfl
      · cases hc
      · rw [List.mem_singleton.1 hc]; decide
    · rcases List.mem_append.1 hc with hc | hc
      · exact hblank c hc
      · have hparens : ∀ c ∈ ("()" : Text), isBlank c = false := by simp; decide
        rcases hcall with rfl | rfl
        · cases hc
        · exact hparens c hc
  have hafter : (Text.after? "\\" (lead ++ (t ++ call))).getD (lead ++ (t ++ call)) = t ++ call := by
    rcases hlead with rfl | rfl
    · have hnone : ¬ ("\\" : Text) <+: t ++ call := by
        intro h
        cases t with
        | nil => rcases hcall with rfl | rfl <;> exact absurd h (by decide)
        | cons c t => exact hslash (by simpa using h)
      rw [List.nil_append, Text.after?_eq_none_iff.2 hnone, Option.getD_none]
    · rw [Text.after?_append, Option.getD_some]
  unfold bareName
  simp only [htrim, hafter]
  rcases hcall with rfl | rfl
  · have hend : ¬ Text.endsWith (t ++ []) "()" = true := fun h =>
      hparen ((Text.endsWith_iff.1 (List.append_nil t ▸ h)).subset (by decide))
    rw [if_neg hend, List.append_nil]
  · rw [if_pos (Text.endsWith_iff.2 (List.suffix_append ..))]
    simp

/-- What stands in a stem for a character of the name. -/
def stemChar (c : Char) : Char := if c = '\\' ∨ c = ':' then '@' else c

theorem stemChar_ne (c : Char) : stemChar c ≠ '\\' ∧ stemChar c ≠ ':' := by
  unfold stemChar
  split
  · decide
  · rename_i hc
    exact not_or.1 hc

theorem generatorPath_eq_map (s : Text) : generatorPath s = (bareName s).map stemChar := by
  have hcolons : ("@@" : Text).map stemChar = ("::" : Text).map stemChar := by decide
  have hchars : ∀ s : Text, Text.substitute ':' '@' (Text.substitute '\\' '@' s) = s.map stemChar := fun s => by
    rw [Text.substitute, Text.substitute, List.map_map]
    refine List.map_congr_left fun c _ => ?_
    by_cases hslash : c = '\\'
    · simp [stemChar, hslash]
    · by_cases hcolon : c = ':' <;> simp [stemChar, hslash, hcolon]
  rw [generatorPath, hchars, Text.map_replace (by decide) hcolons]

structure QualifiedName where
  segments : List Text
  /-- The part behind the double colon. -/
  method : Option Text
deriving DecidableEq, Repr

namespace QualifiedName

/-- The segments between separators, and the method behind a mark. -/
def written (n : QualifiedName) (sep : Char) (mark : Text) : Text :=
  Text.join [sep] n.segments ++ (n.method.map (mark ++ ·)).getD []

/-- The name as it stands in the source language. -/
def text (n : QualifiedName) : Text := n.written '\\' "::"

/-- What follows the lead in the identifier of the generated function. -/
def mangled (n : QualifiedName) : Text := n.written '$' "$$"

/-- The stem of the generated file. -/
def stem (n : QualifiedName) : Text := n.written '@' "@@"

/-- The parts are words. -/
structure OfWords (n : QualifiedName) : Prop where
  segments_ne : n.segments ≠ []
  segment : ∀ s ∈ n.segments, s ≠ [] ∧ ∀ c ∈ s, isNameChar c = true
  method : ∀ m ∈ n.method, m ≠ [] ∧ ∀ c ∈ m, isNameChar c = true

/-- The parts are words, and `fork` starts no longer name: the identifier would be that of a
forkable function. -/
structure WellFormed (n : QualifiedName) : Prop extends OfWords n where
  fork : n.segments.head? = some ("fork" : Text) → n.segments.length = 1 ∧ n.method = none

variable {n m : QualifiedName} {sep : Char} {mark : Text}

/-! ### Characters -/

theorem mem_written {c : Char} (h : c ∈ n.written sep mark) :
    c = sep ∨ c ∈ mark ∨ (∃ s ∈ n.segments, c ∈ s) ∨ ∃ m ∈ n.method, c ∈ m := by
  rcases List.mem_append.1 h with h | h
  · rcases Text.mem_or_mem_of_mem_join h with h | h
    · exact .inl (by simpa using h)
    · exact .inr (.inr (.inl h))
  · cases hm : n.method with
    | none => simp [hm] at h
    | some m =>
      rw [hm] at h
      rcases List.mem_append.1 h with h | h
      · exact .inr (.inl h)
      · exact .inr (.inr (.inr ⟨m, rfl, h⟩))

theorem OfWords.mem_written (h : n.OfWords) {c : Char} (hc : c ∈ n.written sep mark) :
    c = sep ∨ c ∈ mark ∨ isNameChar c = true := by
  rcases QualifiedName.mem_written hc with hc | hc | ⟨s, hs, hc⟩ | ⟨m, hm, hc⟩
  · exact .inl hc
  · exact .inr (.inl hc)
  · exact .inr (.inr ((h.segment s hs).2 c hc))
  · exact .inr (.inr ((h.method m hm).2 c hc))

/-- Whatever a class of characters holds of words and of both separators holds of the name. -/
theorem OfWords.forall_written (h : n.OfWords) {p : Char → Prop} (hsep : p sep)
    (hmark : ∀ c ∈ mark, p c) (hname : ∀ c, isNameChar c = true → p c) :
    ∀ c ∈ n.written sep mark, p c := by
  intro c hc
  rcases h.mem_written hc with rfl | hc | hc
  · exact hsep
  · exact hmark c hc
  · exact hname c hc

/-- The name with its characters mapped. -/
def map (f : Char → Char) (n : QualifiedName) : QualifiedName := ⟨n.segments.map (·.map f), n.method.map (·.map f)⟩

theorem map_written (f : Char → Char) (n : QualifiedName) (sep : Char) (mark : Text) :
    (n.written sep mark).map f = (n.map f).written (f sep) (mark.map f) := by
  unfold written map
  rw [List.map_append, Text.map_join, List.map_singleton]
  cases n.method with
  | none => rfl
  | some m => simp

theorem OfWords.map_eq_self (h : n.OfWords) {f : Char → Char} (hf : ∀ c, isNameChar c = true → f c = c) :
    n.map f = n := by
  have hword : ∀ s : Text, (∀ c ∈ s, isNameChar c = true) → s.map f = s := fun s hs =>
    (List.map_congr_left fun c hc => hf c (hs c hc)).trans (List.map_id s)
  have hsegments : n.segments.map (·.map f) = n.segments :=
    (List.map_congr_left fun s hs => hword s (h.segment s hs).2).trans (List.map_id _)
  have hmethod : n.method.map (·.map f) = n.method := by
    cases hm : n.method with
    | none => rfl
    | some m => exact congrArg some (hword m (h.method m hm).2)
  rw [map, hsegments, hmethod]

theorem OfWords.not_mem_segment (h : n.OfWords) {c : Char} (hc : isNameChar c = false) :
    ∀ s ∈ n.segments, c ∉ s := fun s hs hm => by
  simp [(h.segment s hs).2 c hm] at hc

theorem OfWords.not_mem_method (h : n.OfWords) {c : Char} (hc : isNameChar c = false) :
    ∀ m ∈ n.method, c ∉ m := fun m hm hmem => by
  simp [(h.method m hm).2 c hmem] at hc

theorem OfWords.written_eq_cons (h : n.OfWords) (sep : Char) (mark : Text) :
    ∃ c s, n.written sep mark = c :: s ∧ isNameChar c = true := by
  obtain ⟨seg, segs, hs⟩ := List.exists_cons_of_ne_nil h.segments_ne
  obtain ⟨hne, hchars⟩ := h.segment seg (by simp [hs])
  obtain ⟨c, seg, rfl⟩ := List.exists_cons_of_ne_nil hne
  unfold written
  rw [hs]
  cases segs with
  | nil => exact ⟨c, _, by rw [Text.join_singleton]; rfl, hchars c (by simp)⟩
  | cons s segs => exact ⟨c, _, by rw [Text.join_cons_cons]; rfl, hchars c (by simp)⟩

theorem OfWords.stem_ne (h : n.OfWords) : n.stem ≠ [] := by
  obtain ⟨c, rest, hstem, -⟩ := h.written_eq_cons '@' "@@"
  rw [stem, hstem]
  simp

/-! ### Separators -/

theorem OfWords.replaceFirst_written_append (h : n.OfWords) (hsep : isNameChar sep = false) (new : Text)
    {t : Text} (ht : n.method = none → t = []) :
    Text.replaceFirst [sep, sep] new (n.written sep [sep, sep] ++ t) = n.written sep new ++ t := by
  have hseg : ∀ s ∈ n.segments, s ≠ [] ∧ sep ∉ s := fun s hs =>
    ⟨(h.segment s hs).1, h.not_mem_segment hsep s hs⟩
  unfold written
  rw [List.append_assoc, Text.replaceFirst_join_append hseg, List.append_assoc]
  cases hm : n.method with
  | none => rw [ht hm]; rfl
  | some m =>
    have hcut : Text.replaceFirst [sep, sep] new ([sep, sep] ++ (m ++ t)) = new ++ (m ++ t) :=
      Text.replaceFirst_append sep sep [] new (m ++ t)
    simpa using hcut

theorem OfWords.replaceFirst_written (h : n.OfWords) (hsep : isNameChar sep = false) (new : Text) :
    Text.replaceFirst [sep, sep] new (n.written sep [sep, sep]) = n.written sep new := by
  simpa using h.replaceFirst_written_append hsep new (t := []) fun _ => rfl

theorem OfWords.replaceFirst_written_of_not_mem (h : n.OfWords) (hsep : isNameChar sep = false)
    (hmark : sep ∉ mark) (new t : Text) :
    Text.replaceFirst [sep, sep] new (n.written sep mark ++ t) =
      n.written sep mark ++ Text.replaceFirst [sep, sep] new t := by
  have hseg : ∀ s ∈ n.segments, s ≠ [] ∧ sep ∉ s := fun s hs =>
    ⟨(h.segment s hs).1, h.not_mem_segment hsep s hs⟩
  unfold written
  rw [List.append_assoc, Text.replaceFirst_join_append hseg, List.append_assoc]
  cases hm : n.method with
  | none => rfl
  | some m =>
    have hmem : sep ∉ mark ++ m := by
      rw [List.mem_append, not_or]; exact ⟨hmark, h.not_mem_method hsep m hm⟩
    exact congrArg _ (Text.replaceFirst_append_of_not_mem hmem new t)

theorem OfWords.substitute_written (h : n.OfWords) (hsep : isNameChar sep = false)
    (hmark : sep ∉ mark) (new : Char) :
    Text.substitute sep new (n.written sep mark) = n.written new mark := by
  unfold written
  rw [Text.substitute_append, Text.substitute_join (h.not_mem_segment hsep)]
  cases hm : n.method with
  | none => rfl
  | some m =>
    have hmem : sep ∉ mark ++ m := by
      rw [List.mem_append, not_or]; exact ⟨hmark, h.not_mem_method hsep m hm⟩
    exact congrArg _ (Text.substitute_of_not_mem hmem)

/-! ### To file names -/

theorem OfWords.isBlank_text (h : n.OfWords) : ∀ c ∈ n.text, isBlank c = false :=
  h.forall_written (by decide) (by simp; decide) fun _ hc =>
    Text.isBlank_of_isWordChar (isWordChar_of_isNameChar hc)

theorem OfWords.trim_query (h : n.OfWords) : Text.trim ('\\' :: n.text) = '\\' :: n.text :=
  Text.trim_of_forall fun c hc => by
    rcases List.mem_cons.1 hc with rfl | hc
    · decide
    · exact h.isBlank_text c hc

theorem OfWords.bareName_affixed (h : n.OfWords) {lead call : Text} (hlead : lead = [] ∨ lead = "\\")
    (hcall : call = [] ∨ call = "()") : bareName (lead ++ (n.text ++ call)) = n.text := by
  refine GenScope.bareName_affixed h.isBlank_text ?_ ?_ hlead hcall
  · obtain ⟨c, s, hs, hc⟩ := h.written_eq_cons '\\' "::"
    rw [text, hs]
    intro hp
    obtain rfl : '\\' = c := (List.cons_prefix_cons.1 hp).1
    exact absurd hc (by decide)
  · intro hmem
    rcases h.mem_written hmem with hc | hc | hc
    · exact absurd hc (by decide)
    · exact absurd hc (by decide)
    · exact absurd hc (by decide)

/-- Words are the same in a stem, so that it is the name with the separators of file names. -/
theorem OfWords.generatorPath_eq (h : n.OfWords) {s : Text} (hs : bareName s = n.text) :
    generatorPath s = n.stem := by
  have hkeep : ∀ c, isNameChar c = true → stemChar c = c := by
    intro c hc
    refine if_neg ?_
    rintro (rfl | rfl) <;> exact absurd hc (by decide)
  rw [generatorPath_eq_map, hs, text, map_written, h.map_eq_self hkeep]
  rfl

theorem OfWords.generatorPath_query (h : n.OfWords) :
    generatorPath n.text = n.stem ∧ generatorPath ('\\' :: n.text) = n.stem := by
  have hplain := h.bareName_affixed (.inl rfl) (.inl rfl)
  have hrooted := h.bareName_affixed (.inr rfl) (.inl rfl)
  rw [List.append_nil] at hplain hrooted
  exact ⟨h.generatorPath_eq hplain, h.generatorPath_eq hrooted⟩

theorem OfWords.path?_query (h : n.OfWords) : (SearchQuery.ofText ('\\' :: n.text)).path? = some n.stem := by
  have hqualified : (⟨'\\' :: n.text⟩ : SearchQuery).isFullyQualified = true :=
    Text.startsWith_iff.2 (List.prefix_append ['\\'] n.text)
  rw [SearchQuery.ofText, h.trim_query, SearchQuery.path?, if_pos hqualified]
  exact congrArg some h.generatorPath_query.2

/-! ### Case -/

/-- The name in small letters. -/
def lower (n : QualifiedName) : QualifiedName :=
  ⟨n.segments.map (·.map Char.toLower), n.method.map (·.map Char.toLower)⟩

theorem map_toLower_written (hsep : sep.toLower = sep) (hmark : mark.map Char.toLower = mark) :
    (n.written sep mark).map Char.toLower = n.lower.written sep mark := by
  rw [map_written, hsep, hmark]
  rfl

theorem map_toLower_word {s : Text} (h : s ≠ [] ∧ ∀ c ∈ s, isNameChar c = true) :
    s.map Char.toLower ≠ [] ∧ ∀ c ∈ s.map Char.toLower, isNameChar c = true := by
  refine ⟨by simpa using h.1, fun c hc => ?_⟩
  obtain ⟨d, hd, rfl⟩ := List.mem_map.1 hc
  exact isNameChar_toLower (h.2 d hd)

theorem OfWords.lower_written (h : n.OfWords) (hsep : sep.toNat < 128 ∧ sep.toLower = sep)
    (hmark : (∀ c ∈ mark, c.toNat < 128) ∧ mark.map Char.toLower = mark) :
    Text.lower (n.written sep mark) = n.lower.written sep mark := by
  rw [← map_toLower_written hsep.2 hmark.2]
  exact Text.lower_of_forall (h.forall_written hsep.1 hmark.1 fun c hc => toNat_lt_of_isNameChar hc)

theorem OfWords.lower (h : n.OfWords) : n.lower.OfWords where
  segments_ne := by simpa [QualifiedName.lower] using h.segments_ne
  segment s hs := by
    obtain ⟨u, hu, rfl⟩ := List.mem_map.1 hs
    exact map_toLower_word (h.segment u hu)
  method m hm := by
    obtain ⟨u, hu, rfl⟩ := Option.map_eq_some_iff.1 hm
    exact map_toLower_word (h.method u hu)

theorem OfWords.lower_stem_append (h : n.OfWords) {e : Text} (he : ∀ c ∈ e, c.toNat < 128) :
    Text.lower (n.stem ++ e) = Text.lower n.stem ++ Text.lower e := by
  have hstem : ∀ c ∈ n.stem, c.toNat < 128 :=
    h.forall_written (by decide) (by simp) fun c hc => toNat_lt_of_isNameChar hc
  have hboth : ∀ c ∈ n.stem ++ e, c.toNat < 128 := fun c hc => by
    rcases List.mem_append.1 hc with hc | hc
    · exact hstem c hc
    · exact he c hc
  rw [Text.lower_of_forall hboth, Text.lower_of_forall hstem, Text.lower_of_forall he, List.map_append]

theorem OfWords.dot_not_mem_lower_stem (h : n.OfWords) : '.' ∉ Text.lower n.stem := by
  rw [stem, h.lower_written (by decide) (by simp)]
  intro hmem
  rcases h.lower.mem_written hmem with hc | hc | hc
  · exact absurd hc (by decide)
  · exact absurd hc (by decide)
  · exact absurd hc (by decide)

/-- Names whose stems are the same in small letters are the same in small letters. -/
theorem lower_text_eq_of_lower_stem_eq (hn : n.OfWords) (hm : m.OfWords)
    (h : Text.lower n.stem = Text.lower m.stem) : Text.lower n.text = Text.lower m.text := by
  have hstem : n.lower.written '@' "@@" = m.lower.written '@' "@@" := by
    rw [← hn.lower_written (by decide) (by simp), ← hm.lower_written (by decide) (by simp)]
    exact h
  have hread : ∀ k : QualifiedName, k.OfWords → Text.substitute '@' '\\'
      (Text.replaceFirst ['@', '@'] "::" (k.written '@' "@@")) = k.written '\\' "::" := fun k hk => by
    rw [show ("@@" : Text) = ['@', '@'] from rfl, hk.replaceFirst_written (by decide),
      hk.substitute_written (by decide) (by decide)]
  rw [text, text, hn.lower_written (by decide) (by simp), hm.lower_written (by decide) (by simp),
    ← hread _ hn.lower, ← hread _ hm.lower, hstem]

end QualifiedName

end GenScope
