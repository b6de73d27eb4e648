import GenScope.Proofs.Cpp.Comment

/-!
# Comment lines left out

The search for comments goes through the text from the left and erases, at the start of a line, two slashes,
what follows them on the line and the line feed (`Erased`). As it goes on behind a line feed, this leaves out
whole lines and nothing else (`erased_iff`). It passes over a line that holds the two slashes only and over a
last line without a line feed: both start like a comment and stay. Where there is no such line, exactly the
lines that do not start with two slashes are left (`stripComments_eq_filter_iff`).
-/

namespace GenScope.Cpp

open Text (IsWholeLines)

variable {w s t r l : Text} {c : Char} {atLineStart : Bool}

/-! ### Lines -/

theorem lines_induction {P : Text → Prop} (last : ∀ w, '\n' ∉ w → P w)
    (line : ∀ w t, '\n' ∉ w → P t → P (w ++ '\n' :: t)) (s : Text) : P s := by
  induction h : s.length using Nat.strong_induction_on generalizing s with
  | _ n ih =>
    by_cases hline : '\n' ∈ s
    · obtain ⟨w, t, rfl, hw⟩ := List.eq_append_cons_of_mem hline
      have ht : P t := ih t.length (by simp [← h]; omega) t rfl
      exact line w t hw ht
    · exact last s hline

theorem endedLines_last (h : '\n' ∉ w) : endedLines w = if w = [] then [] else [w] := by
  induction w with
  | nil => rfl
  | cons c w ih =>
    obtain ⟨hc, hw⟩ := not_or.1 (mt List.mem_cons.2 h)
    rw [endedLines, if_neg (Ne.symm hc), ih hw]
    by_cases hnil : w = [] <;> simp [hnil]

theorem endedLines_line_append (h : '\n' ∉ w) (t : Text) :
    endedLines (w ++ '\n' :: t) = (w ++ ['\n']) :: endedLines t := by
  have hwhole : IsWholeLines (w ++ ['\n']) := fun c hc => by simpa [eq_comm] using hc
  have hcut : w ++ '\n' :: t = (w ++ ['\n']) ++ t := by simp
  rw [hcut, endedLines_append hwhole, endedLines_line h]
  rfl

theorem endedLines_filter (p : Text → Bool) (s : Text) :
    endedLines ((endedLines s).filter p).flatten = (endedLines s).filter p := by
  induction s using lines_induction with
  | last w hw =>
    rw [endedLines_last hw]
    by_cases hnil : w = []
    · simp [hnil, endedLines]
    · by_cases hp : p w = true
      · simp [hnil, hp, endedLines_last hw]
      · simp [hnil, hp, endedLines]
  | line w t hw ih =>
    rw [endedLines_line_append hw, List.filter_cons]
    split
    · rw [List.flatten_cons, List.append_assoc, List.singleton_append, endedLines_line_append hw, ih]
    · exact ih

theorem exists_of_mem_endedLines (h : l ∈ endedLines s) : ∃ w, '\n' ∉ w ∧ (l = w ∨ l = w ++ ['\n']) := by
  induction s using lines_induction with
  | last w hw =>
    rw [endedLines_last hw] at h
    split at h
    · cases h
    · exact ⟨w, hw, .inl (List.mem_singleton.1 h)⟩
  | line w t hw ih =>
    rw [endedLines_line_append hw] at h
    rcases List.mem_cons.1 h with h | h
    · exact ⟨w, hw, .inr h⟩
    · exact ih h

theorem eq_commentLine (hstart : ("//" : Text) <+: l) (hend : ("\n" : Text) <:+ l) : ∃ w, l = commentLine w := by
  obtain ⟨rest, rfl⟩ := hstart
  rcases List.eq_nil_or_concat rest with rfl | ⟨w, c, rfl⟩
  · exact absurd hend (by decide)
  · obtain ⟨u, hu⟩ := hend
    rw [List.concat_eq_append, ← List.append_assoc] at hu
    obtain ⟨-, hc⟩ := List.append_inj' hu rfl
    exact ⟨w, by rw [commentLine, List.concat_eq_append, ← hc]; rfl⟩

theorem isCommentLine_iff_eq : isCommentLine l = true ↔ ∃ w, w ≠ [] ∧ l = commentLine w := by
  constructor
  · intro h
    simp only [isCommentLine, Bool.and_eq_true, decide_eq_true_eq, Text.startsWith_iff, Text.endsWith_iff] at h
    obtain ⟨⟨hstart, hlen⟩, hend⟩ := h
    obtain ⟨w, rfl⟩ := eq_commentLine hstart hend
    refine ⟨w, ?_, rfl⟩
    rintro rfl
    exact absurd hlen (by decide)
  · rintro ⟨w, hne, rfl⟩
    exact isCommentLine_commentLine hne

/-- A line that starts like a comment and is none holds the slashes only, or is not ended. -/
theorem isCommentLine_iff : isCommentLine l = true ↔ ("//" : Text) <+: l ∧ l ≠ "//\n" ∧ ("\n" : Text) <:+ l := by
  rw [isCommentLine_iff_eq]
  constructor
  · rintro ⟨w, hne, rfl⟩
    refine ⟨List.prefix_append .., fun h => hne ?_, "//" ++ w, by simp [commentLine]⟩
    simpa [commentLine_eq] using h
  · rintro ⟨hstart, hne, hend⟩
    obtain ⟨w, rfl⟩ := eq_commentLine hstart hend
    refine ⟨w, ?_, rfl⟩
    rintro rfl
    exact hne rfl

theorem newline_not_mem_of_commentLine (h : commentLine w ∈ endedLines s) : '\n' ∉ w := by
  obtain ⟨v, hv, hw | hw⟩ := exists_of_mem_endedLines h
  · exact absurd (by simp [← hw, commentLine]) hv
  · rw [commentLine, ← List.append_assoc] at hw
    rw [← List.append_cancel_right hw] at hv
    exact fun hmem => hv (List.mem_append_right _ hmem)

/-! ### What the search erases -/

/-- The text starts with a comment line. -/
def StartsWithComment (s : Text) : Prop := ∃ w t, w ≠ [] ∧ '\n' ∉ w ∧ s = commentLine w ++ t

/-- What is left of a text when the comments that a search from the left finds are erased. -/
inductive Erased : (atLineStart : Bool) → (s r : Text) → Prop
  | nil {atLineStart : Bool} : Erased atLineStart [] []
  | comment {w s r : Text} : w ≠ [] → '\n' ∉ w → Erased true s r → Erased true (commentLine w ++ s) r
  | keep {atLineStart : Bool} {c : Char} {s r : Text} : ¬ (atLineStart = true ∧ StartsWithComment (c :: s)) →
      Erased (c == '\n') s r → Erased atLineStart (c :: s) (c :: r)

theorem exists_erased (atLineStart : Bool) (s : Text) : ∃ r, Erased atLineStart s r := by
  induction h : s.length using Nat.strong_induction_on generalizing atLineStart s with
  | _ n ih =>
    by_cases hcomment : atLineStart = true ∧ StartsWithComment s
    · obtain ⟨rfl, w, t, hne, hw, rfl⟩ := hcomment
      obtain ⟨r, hr⟩ := ih t.length (by simp [commentLine, ← h]; omega) true t rfl
      exact ⟨r, .comment hne hw hr⟩
    · cases s with
      | nil => exact ⟨[], .nil⟩
      | cons c s =>
        obtain ⟨r, hr⟩ := ih s.length (by simp [← h]) (c == '\n') s rfl
        exact ⟨c :: r, .keep hcomment hr⟩

/-- What is left behind the start of a line, or from within a line. -/
def leftFrom (atLineStart : Bool) (s : Text) : Text :=
  if atLineStart then stripComments s
  else (endedLines s).headD [] ++ ((endedLines s).tail.filter (!isCommentLine ·)).flatten

theorem leftFrom_cons (h : ¬ (atLineStart = true ∧ StartsWithComment (c :: s))) :
    leftFrom atLineStart (c :: s) = c :: leftFrom (c == '\n') s := by
  by_cases hc : c = '\n'
  · subst hc
    have hline : isCommentLine ['\n'] = false := by decide
    cases atLineStart <;> simp [leftFrom, stripComments, endedLines, hline]
  · cases hs : endedLines s with
    | nil =>
      have hline : isCommentLine [c] = false := by simp [isCommentLine]
      cases atLineStart <;> simp [leftFrom, stripComments, endedLines, hc, hs, hline]
    | cons l ls =>
      cases atLineStart with
      | false => simp [leftFrom, endedLines, hc, hs]
      | true =>
        have hlines : endedLines (c :: s) = (c :: l) :: ls := by simp [endedLines, hc, hs]
        have hline : isCommentLine (c :: l) = false := by
          refine Bool.eq_false_iff.2 fun hline => h ⟨rfl, ?_⟩
          obtain ⟨w, hne, hw⟩ := isCommentLine_iff_eq.1 hline
          have hmem : commentLine w ∈ endedLines (c :: s) := by rw [hlines, ← hw]; exact List.mem_cons_self
          refine ⟨w, ls.flatten, hne, newline_not_mem_of_commentLine hmem, ?_⟩
          rw [← hw, ← List.flatten_cons, ← hlines, flatten_endedLines]
        simp [leftFrom, stripComments, hlines, hline, hc, hs]

theorem Erased.eq (h : Erased atLineStart s r) : leftFrom atLineStart s = r := by
  induction h with
  | nil => cases ‹Bool› <;> rfl
  | comment hne hw _ ih =>
    have hstart : IsWholeLines [] := fun c hc => by cases hc
    rw [← ih]
    exact stripComments_insert hstart hne hw _
  | keep hcomment _ ih => rw [leftFrom_cons hcomment, ih]

theorem erased_iff : Erased true s r ↔ stripComments s = r := by
  constructor
  · exact Erased.eq
  · rintro rfl
    obtain ⟨r, hr⟩ := exists_erased true s
    have heq : stripComments s = r := hr.eq
    rwa [heq]

/-! ### Lines that are left -/

theorem stripComments_of_not_mem (h : '\n' ∉ w) : stripComments w = w := by
  have hline : isCommentLine w = false :=
    Bool.eq_false_iff.2 fun hw => h ((isCommentLine_iff.1 hw).2.2.subset (by decide))
  rw [stripComments, endedLines_last h]
  by_cases hnil : w = [] <;> simp [hnil, hline]

theorem stripComments_line_append (h : '\n' ∉ w) (t : Text) : stripComments (w ++ '\n' :: t) =
    (if isCommentLine (w ++ ['\n']) then [] else w ++ ['\n']) ++ stripComments t := by
  rw [stripComments, endedLines_line_append h, List.filter_cons]
  cases hline : isCommentLine (w ++ ['\n']) <;> simp [stripComments]

theorem endedLines_stripComments (s : Text) :
    endedLines (stripComments s) = (endedLines s).filter (!isCommentLine ·) := endedLines_filter _ s

/-- No line starts like a comment without being one: with the slashes only, or without a line feed. -/
def NoUnfinishedComment (s : Text) : Prop :=
  ∀ l ∈ endedLines s, ("//" : Text) <+: l → l ≠ "//\n" ∧ ("\n" : Text) <:+ l

theorem noUnfinishedComment_iff : NoUnfinishedComment s ↔
    ∀ l ∈ endedLines s, isCommentLine l = Text.startsWith l "//" := by
  refine forall₂_congr fun l _ => ?_
  rw [Bool.eq_iff_iff, isCommentLine_iff, Text.startsWith_iff]
  tauto

/-- The search for comments leaves whole lines out, and leaving them out again changes nothing. What is left is the
lines that do not start with two slashes, and no line of it does, if and only if no line starts like a comment
without being one. -/
theorem stripComments_eq_filter_iff (s : Text) :
    (∀ r, Erased true s r ↔ stripComments s = r) ∧
    endedLines (stripComments s) = (endedLines s).filter (!isCommentLine ·) ∧
    stripComments (stripComments s) = stripComments s ∧
    (stripComments s = ((endedLines s).filter (!Text.startsWith · "//")).flatten ↔ NoUnfinishedComment s) ∧
    ((∀ l ∈ endedLines (stripComments s), ¬ ("//" : Text) <+: l) ↔ NoUnfinishedComment s) := by
  refine ⟨fun r => erased_iff, endedLines_stripComments s, ?_, ?_, ?_⟩
  · rw [stripComments, endedLines_stripComments, List.filter_filter]
    simp [stripComments]
  · rw [noUnfinishedComment_iff]
    constructor
    · intro h l hl
      have hlines := congrArg endedLines h
      rw [endedLines_stripComments, endedLines_filter] at hlines
      have hmem := congrArg (l ∈ ·) hlines
      simpa [hl] using hmem
    · intro h
      rw [stripComments]
      exact congrArg _ (List.filter_congr fun l hl => by rw [h l hl])
  · rw [endedLines_stripComments]
    constructor
    · intro h l hl hstart
      have hcomment : isCommentLine l = true := by
        by_contra hnot
        exact h l (List.mem_filter.2 ⟨hl, by simpa using hnot⟩) hstart
      exact (isCommentLine_iff.1 hcomment).2
    · intro h l hl hstart
      obtain ⟨hl, hnot⟩ := List.mem_filter.1 hl
      simp [isCommentLine_iff.2 ⟨hstart, h l hl hstart⟩] at hnot

/-- The slashes alone stay, and so does a last line that is not ended. -/
theorem bare_slashes_kept :
    stripComments "//\n" ≠ ((endedLines "//\n").filter (!Text.startsWith · "//")).flatten ∧
      stripComments "//\n" = "//\n" ∧ stripComments "//1: $x;" = "//1: $x;" := by
  decide

end GenScope.Cpp
