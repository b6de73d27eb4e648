import GenScope.Proofs.Cpp.CommentLine
import GenScope.Proofs.Cpp.LocalLine
import GenScope.Proofs.Text.Join

/-!
# Which local variables are found

Two searches read a line of a body: one for a space and the mark of a name, which decides whether the
line is a declaration, and one for any white space, the mark and an identifier, which gives the name and
the type. Where every mark behind a space has a name, the second search succeeds on each line that
passes the first one and stops no later than it, so that every such line of the file gives one variable
(`localVars_declared`). Comment lines are stripped before, but none of them passes for a declaration
(`filter_lines_stripComments`).
-/

namespace GenScope.Cpp

open Text (isBlank isIdentChar)

variable {indent line before name s : Text} {v : Variable}

/-! ### Comment lines -/

theorem lines_line_append (h : '\n' ∉ line) (s : Text) : Text.lines (line ++ '\n' :: s) = line :: Text.lines s := by
  have hline : Text.split (· == '\n') line = [line] := Text.split_of_forall fun c hc => by
    have hne : c ≠ '\n' := by
      rintro rfl
      exact h hc
    simpa using hne
  rw [Text.lines, Text.split_append_cons rfl, hline]
  rfl

theorem filter_lines_stripComments {p : Text → Bool} (hp : ∀ line, ("//" : Text) <+: line → p line = false)
    (s : Text) : (Text.lines (stripComments s)).filter p = (Text.lines s).filter p := by
  induction s using lines_induction with
  | last line hline => rw [stripComments_of_not_mem hline]
  | line line rest hline ih =>
    rw [stripComments_line_append hline, lines_line_append hline, List.filter_cons, ← ih]
    split
    · rename_i hcomment
      have hslashes : ("//" : Text) <+: line ++ ['\n'] := (isCommentLine_iff.1 hcomment).1
      rw [hp line (Text.isPrefix_of_isPrefix_append_cons (by decide) hslashes)]
      rfl
    · rw [List.append_assoc, List.singleton_append, lines_line_append hline, List.filter_cons]

/-! ### Marks and names -/

/-- Behind a space, every mark of a name has a name. -/
def MarksNamed (s : Text) : Prop :=
  ∀ before rest, s = before ++ (" v$" ++ rest) → ∃ c tail, rest = c :: tail ∧ isIdentChar c = true

theorem marksNamed_iff : MarksNamed s ↔
    ∀ n < s.length, Text.startsWith (s.drop n) " v$" = true → s[n + 3]?.any isIdentChar = true := by
  constructor
  · intro h n _ hmark
    obtain ⟨rest, hrest⟩ := Text.startsWith_iff.1 hmark
    obtain ⟨c, tail, rfl, hc⟩ := h (s.take n) rest (by rw [hrest, List.take_append_drop])
    rw [← List.getElem?_drop, ← hrest]
    simpa using hc
  · rintro h before rest rfl
    have hc := h before.length (by simp) (by simp [Text.startsWith])
    cases rest with
    | nil => simp at hc
    | cons c tail => exact ⟨c, tail, rfl, by simpa using hc⟩

instance (s : Text) : Decidable (MarksNamed s) := decidable_of_iff _ marksNamed_iff.symm

theorem exists_append_of_mem_lines (h : line ∈ Text.lines s) :
    ∃ u w, s = u ++ (line ++ w) ∧ (w = [] ∨ ∃ t, w = '\n' :: t) := by
  obtain ⟨as, bs, hls⟩ := List.append_of_mem h
  have hs : s = Text.join "\n" (as ++ line :: bs) := by rw [← hls]; exact (Text.join_split '\n' s).symm
  have hbehind : ∃ w, Text.join "\n" (line :: bs) = line ++ w ∧ (w = [] ∨ ∃ t, w = '\n' :: t) := by
    cases bs with
    | nil => exact ⟨[], by simp, .inl rfl⟩
    | cons next bs => exact ⟨_, by rw [Text.join_cons_cons, List.append_assoc]; rfl, .inr ⟨_, rfl⟩⟩
  obtain ⟨w, hw, hend⟩ := hbehind
  have hfront : ∃ u, s = u ++ Text.join "\n" (line :: bs) := by
    rw [hs]
    clear h hls hs hw
    induction as with
    | nil => exact ⟨[], rfl⟩
    | cons a as ih =>
      obtain ⟨u, hu⟩ := ih
      obtain ⟨next, rest, hnext⟩ := List.exists_cons_of_ne_nil (by simp : as ++ line :: bs ≠ [])
      refine ⟨a ++ "\n" ++ u, ?_⟩
      rw [List.cons_append, hnext, Text.join_cons_cons, ← hnext, hu]
      simp
  obtain ⟨u, hu⟩ := hfront
  exact ⟨u, w, by rw [hu, hw], hend⟩

theorem MarksNamed.of_mem_lines (h : MarksNamed s) (hline : line ∈ Text.lines s) : MarksNamed line := by
  intro before rest heq
  obtain ⟨u, w, hs, hw⟩ := exists_append_of_mem_lines hline
  obtain ⟨c, tail, hrest, hc⟩ := h (u ++ before) (rest ++ w) (by rw [hs, heq]; simp)
  cases rest with
  | nil =>
    -- the mark would end its line
    rcases hw with rfl | ⟨t, rfl⟩
    · cases hrest
    · obtain ⟨rfl, -⟩ := List.cons.inj hrest
      cases hc
  | cons d rest =>
    obtain ⟨rfl, -⟩ := List.cons.inj hrest
    exact ⟨d, rest, rfl, hc⟩

theorem LooksLocal.holdsName (h : LooksLocal indent line) (hm : MarksNamed line) : HoldsName line := by
  obtain ⟨before, rest, hline, -⟩ := h.mark
  obtain ⟨c, tail, rfl, hc⟩ := hm before rest hline
  exact ⟨before, ' ', c, tail, hline, rfl, hc⟩

/-! ### The variable of a line -/

/-- The first identifier of a line with a mark behind white space, and what stands in front of the
mark. -/
structure IsFirstName (line before ident : Text) : Prop where
  line_eq : ∃ rest, line = before ++ 'v' :: '$' :: (ident ++ rest) ∧
    ∀ c, rest.head? = some c → isIdentChar c = false
  blank : ∃ b, before.getLast? = some b ∧ isBlank b = true
  ident_ne : ident ≠ []
  ident_char : ∀ c ∈ ident, isIdentChar c = true
  first : ∀ u b c w, line = u ++ b :: 'v' :: '$' :: c :: w → isBlank b = true → isIdentChar c = true →
    before.length ≤ u.length + 1

/-- The line declares the variable: its first identifier is the name, and the type stands in front. -/
def DeclaresLocal (line : Text) (v : Variable) : Prop :=
  ∃ before ident, IsFirstName line before ident ∧ v.name = '$' :: ident ∧ v.type = Text.trim before

theorem of_markedName?_cons {b : Char} (h : markedName? (b :: s) = some (before, name)) :
    (isBlank b = true ∧ before = [b] ∧ ∃ ident rest, name = 'v' :: '$' :: ident ∧
      s = 'v' :: '$' :: (ident ++ rest) ∧ ident ≠ [] ∧ (∀ c ∈ ident, isIdentChar c = true) ∧
      ∀ c, rest.head? = some c → isIdentChar c = false) ∨
    ((isBlank b = true → ∀ c rest, s = 'v' :: '$' :: c :: rest → isIdentChar c = false) ∧
      ∃ tail, before = b :: tail ∧ markedName? s = some (tail, name)) := by
  rw [markedName?] at h
  obtain ⟨⟨tail, found⟩, hor, heq⟩ := Option.map_eq_some_iff.1 h
  obtain ⟨rfl, rfl⟩ := Prod.mk.inj heq
  by_cases hname : isBlank b = true ∧ ∃ c rest, s = 'v' :: '$' :: c :: rest ∧ isIdentChar c = true
  · obtain ⟨hb, c, rest, rfl, hc⟩ := hname
    have hhere : ([], 'v' :: '$' :: (c :: rest).takeWhile isIdentChar) = (tail, found) := by
      simpa [hb, hc, Text.startsWith] using hor
    obtain ⟨rfl, rfl⟩ := Prod.mk.inj hhere
    refine .inl ⟨hb, rfl, _, (c :: rest).dropWhile isIdentChar, rfl, ?_, by simp [hc], ?_, fun d hd => ?_⟩
    · rw [List.takeWhile_append_dropWhile]
    · exact fun d hd => List.mem_takeWhile_imp hd
    · have := List.head?_dropWhile_not isIdentChar (c :: rest)
      rw [hd] at this
      exact this
  · have hno : isBlank b = true → ∀ c rest, s = 'v' :: '$' :: c :: rest → isIdentChar c = false :=
      fun hb c rest hs => Bool.eq_false_iff.2 fun hc => hname ⟨hb, c, rest, hs, hc⟩
    refine .inr ⟨hno, tail, rfl, ?_⟩
    rcases Option.or_eq_some_iff.1 hor with hhere | ⟨-, htail⟩
    · split at hhere
      · rename_i hmark
        obtain ⟨hb, hv⟩ := Bool.and_eq_true_iff.1 hmark
        obtain ⟨rest, rfl⟩ := Text.startsWith_iff.1 hv
        cases rest with
        | nil => simp at hhere
        | cons c rest => simp [hno hb c rest rfl] at hhere
      · cases hhere
    · exact htail

theorem of_markedName?_eq_some (h : markedName? line = some (before, name)) :
    ∃ ident, name = 'v' :: '$' :: ident ∧ IsFirstName line before ident := by
  induction line generalizing before with
  | nil => cases h
  | cons b s ih =>
    rcases of_markedName?_cons h with ⟨hb, rfl, ident, rest, rfl, rfl, hne, hident, hend⟩ | ⟨hno, tail, rfl, htail⟩
    · exact ⟨ident, rfl, ⟨rest, rfl, hend⟩, ⟨b, rfl, hb⟩, hne, hident, fun u _ _ _ _ _ _ => by simp⟩
    · obtain ⟨ident, rfl, hfirst⟩ := ih htail
      obtain ⟨⟨rest, hs, hend⟩, ⟨b', hlast, hb'⟩, hne, hident, hbefore⟩ := hfirst
      refine ⟨ident, rfl, ⟨rest, by rw [hs]; rfl, hend⟩, ⟨b', ?_, hb'⟩, hne, hident, fun u d c w heq hd hc => ?_⟩
      · simp [List.getLast?_cons, hlast]
      · cases u with
        | nil =>
          obtain ⟨rfl, hs⟩ := List.cons.inj heq
          simp [hno hd c w hs] at hc
        | cons e u => exact Nat.succ_le_succ (hbefore u d c w (List.cons.inj heq).2 hd hc)

instance (indent line : Text) : Decidable (LooksLocal indent line) :=
  decidable_of_iff (∃ n ∈ Text.position? " v$" line, isLocalDeclaration line (line.take n) indent = true)
    (by simp [looksLocal_iff])

theorem LocalLine.ofLine_of_not_looksLocal (h : ¬ LooksLocal indent line) : LocalLine.ofLine indent line = .other := by
  rw [looksLocal_iff] at h
  unfold LocalLine.ofLine
  split
  · rfl
  · rename_i n hn
    exact if_neg fun hdecl => h ⟨n, hn, hdecl⟩

theorem LocalLine.ofLine_of_looksLocal (h : LooksLocal indent line) (hname : HoldsName line) :
    ∃ v, LocalLine.ofLine indent line = .declares v ∧ DeclaresLocal line v := by
  obtain ⟨n, hn, hdecl⟩ := looksLocal_iff.1 h
  obtain ⟨⟨before, name⟩, hmarked⟩ := Option.isSome_iff_exists.1 (markedName?_isSome_iff.2 hname)
  obtain ⟨ident, rfl, hfirst⟩ := of_markedName?_eq_some hmarked
  refine ⟨⟨'$' :: ident, Text.trim before⟩, ?_, before, ident, hfirst, rfl, rfl⟩
  rw [LocalLine.ofLine, hn]
  simp only [hdecl, if_true, hmarked]
  rfl

/-! ### The variables of a file -/

theorem IsFirstName.isPrefix {ident front rest : Text} (h : IsFirstName line before ident) (hm : MarksNamed line)
    (hline : line = front ++ (" v$" ++ rest)) : before <+: front ++ [' '] := by
  obtain ⟨c, tail, rfl, hc⟩ := hm front rest hline
  obtain ⟨more, hmore, -⟩ := h.line_eq
  have hlen : before.length ≤ (front ++ [' ']).length := by
    simpa using h.first front ' ' c tail hline rfl hc
  refine List.prefix_of_prefix_length_le ⟨_, hmore.symm⟩ ⟨'v' :: '$' :: c :: tail, ?_⟩ hlen
  rw [hline]
  simp

/-- The mark does not begin at the indent or in it, so that the type holds the character at the
indent. -/
theorem IsFirstName.mem_before {ident : Text} {c : Char} (h : IsFirstName line before ident)
    (hindent : ∀ d ∈ indent, d = ' ') (hline : line = indent ++ c :: s) (hmark : ¬ ("v$" : Text) <+: c :: s) :
    c ∈ before := by
  obtain ⟨rest, hrest, -⟩ := h.line_eq
  rw [hline] at hrest
  rcases List.append_eq_append_iff.1 hrest with ⟨w, rfl, hw⟩ | ⟨w, rfl, hw⟩
  · cases w with
    | nil => exact absurd ⟨ident ++ rest, hw.symm⟩ hmark
    | cons d w =>
      obtain ⟨rfl, -⟩ := List.cons.inj hw
      simp
  · cases w with
    | nil => exact absurd ⟨ident ++ rest, hw⟩ hmark
    | cons d w =>
      obtain ⟨rfl, -⟩ := List.cons.inj hw
      cases hindent 'v' (by simp)

theorem DeclaresLocal.sound (h : DeclaresLocal line v) (hlocal : LooksLocal indent line) (hm : MarksNamed line)
    (hindent : ∀ d ∈ indent, d = ' ') : v.name.head? = some '$' ∧
      (∀ fragment ∈ syntheticFragments, ¬ fragment <:+: 'v' :: v.name) ∧
      v.type ≠ [] ∧ ∀ c ∈ v.type, endsDeclaration c = false := by
  obtain ⟨before, ident, hfirst, hname, htype⟩ := h
  obtain ⟨⟨c, s, hline, hblank, hmark, -⟩, hsynthetic, front, rest, hfront, hend⟩ := hlocal
  obtain ⟨more, hmore, -⟩ := hfirst.line_eq
  have hinfix : 'v' :: v.name <:+: line := ⟨before, more, by rw [hmore, hname]; simp⟩
  have hc : c ∈ before := hfirst.mem_before hindent hline hmark
  refine ⟨by rw [hname]; rfl, fun fragment hf hin => hsynthetic fragment hf (hin.trans hinfix), ?_, ?_⟩
  · rw [htype, Ne, Text.trim_eq_nil_iff, Text.isAllBlank, List.all_eq_true]
    intro hall
    rw [hall c hc] at hblank
    cases hblank
  · rw [htype]
    intro d hd
    have hd : d ∈ front ++ [' '] := (hfirst.isPrefix hm hfront).subset (Text.mem_of_mem_trim hd)
    rcases List.mem_append.1 hd with hd | hd
    · exact hend d hd
    · rw [List.mem_singleton.1 hd]
      rfl

/-- Each line that passes for a declaration gives one variable, in the order of the lines. -/
theorem collectLocals?_ofLine {ls : List Text} (h : ∀ line ∈ ls, LooksLocal indent line → HoldsName line) :
    ∃ vs, collectLocals? (ls.map (LocalLine.ofLine indent)) = some vs ∧
      List.Forall₂ DeclaresLocal (ls.filter fun line => LooksLocal indent line) vs := by
  induction ls with
  | nil => exact ⟨[], rfl, .nil⟩
  | cons line ls ih =>
    obtain ⟨hline, hls⟩ := List.forall_mem_cons.1 h
    obtain ⟨vs, hvs, hdeclared⟩ := ih hls
    rw [List.map_cons, List.filter_cons]
    by_cases hlocal : LooksLocal indent line
    · obtain ⟨v, hv, hdeclares⟩ := LocalLine.ofLine_of_looksLocal hlocal (hline hlocal)
      rw [hv, if_pos (decide_eq_true hlocal)]
      exact ⟨v :: vs, by rw [collectLocals?, hvs]; rfl, .cons hdeclares hdeclared⟩
    · rw [LocalLine.ofLine_of_not_looksLocal hlocal, if_neg (by simpa using hlocal)]
      exact ⟨vs, hvs, hdeclared⟩

theorem forall_of_forall₂ {α β : Type} {r : α → β → Prop} {q : β → Prop} {as : List α} {bs : List β}
    (h : List.Forall₂ r as bs) (hq : ∀ a ∈ as, ∀ b, r a b → q b) : ∀ b ∈ bs, q b := by
  induction h with
  | nil => simp
  | cons hr _ ih =>
    rw [List.forall_mem_cons] at hq ⊢
    exact ⟨hq.1 _ hr, ih hq.2⟩

namespace FunctionSource

theorem indent_blank (f : FunctionSource) : ∀ c ∈ f.indent, c = ' ' := by
  unfold indent
  split
  · simp
  · simp

theorem not_looksLocal_of_slashes (f : FunctionSource) (h : ("//" : Text) <+: line) : ¬ LooksLocal f.indent line := by
  rintro ⟨⟨c, s, rfl, -⟩, -⟩
  have hslash : f.indent.head? = some '/' := by
    unfold indent at h ⊢
    split at h <;> exact absurd (List.cons_prefix_cons.1 h).1 (by decide)
  exact absurd (f.indent_blank '/' (List.mem_of_mem_head? hslash)) (by decide)

/-- If every mark of a name behind a space has a name, each line of the file that passes for a
declaration gives one variable, in the order of the lines, and nothing else is reported. No name is that
of a temporary, and every type is some text without the characters that end a declaration. -/
theorem localVars_declared (f : FunctionSource) (h : MarksNamed f.text) :
    ∃ vs, f.localVars = .ok vs ∧
      List.Forall₂ DeclaresLocal ((Text.lines f.text).filter fun line => LooksLocal f.indent line) vs ∧
      ∀ v ∈ vs, v.name.head? = some '$' ∧
        (∀ fragment ∈ syntheticFragments, ¬ fragment <:+: 'v' :: v.name) ∧
        v.type ≠ [] ∧ ∀ c ∈ v.type, endsDeclaration c = false := by
  have hkept := filter_lines_stripComments (p := fun line => LooksLocal f.indent line)
    (fun line hslashes => decide_eq_false (f.not_looksLocal_of_slashes hslashes)) f.text
  have hnamed : ∀ line ∈ (Text.lines f.text).filter fun line => LooksLocal f.indent line,
      LooksLocal f.indent line ∧ MarksNamed line := by
    intro line hline
    obtain ⟨hmem, hlocal⟩ := List.mem_filter.1 hline
    exact ⟨of_decide_eq_true hlocal, h.of_mem_lines hmem⟩
  have hholds : ∀ line ∈ Text.lines (stripComments f.text), LooksLocal f.indent line → HoldsName line := by
    intro line hmem hlocal
    have hline : line ∈ (Text.lines (stripComments f.text)).filter fun line => LooksLocal f.indent line :=
      List.mem_filter.2 ⟨hmem, decide_eq_true hlocal⟩
    rw [hkept] at hline
    exact hlocal.holdsName (hnamed line hline).2
  obtain ⟨vs, hvs, hdeclared⟩ := collectLocals?_ofLine hholds
  rw [hkept] at hdeclared
  refine ⟨vs, by rw [localVars, localVars?, hvs], hdeclared, ?_⟩
  refine forall_of_forall₂ hdeclared fun line hline v hv => ?_
  obtain ⟨hlocal, hm⟩ := hnamed line hline
  exact hv.sound hlocal hm f.indent_blank

/-- A tab before a mark, which only the second search sees, a declaration in a comment, a temporary, an
assignment and a return. -/
theorem localVars_declared_tab :
    let f : FunctionSource := ⟨.ofText "a.cpp", ".h", "int64_t f$a() \x7b\n  int64_t v$a;\n//  mixed v$x;\n" ++
      "  array<mixed>\tv$b, v$c;\n  int64_t v$tmp_expr1;\n  v$a = 1;\n  return v$a;\n\x7d\n"⟩
    MarksNamed f.text ∧
      f.localVars = .ok [⟨"$a", "int64_t"⟩, ⟨"$b", "array<mixed>"⟩] ∧
      List.Forall₂ DeclaresLocal ["  int64_t v$a;", "  array<mixed>\tv$b, v$c;"]
        [⟨"$a", "int64_t"⟩, ⟨"$b", "array<mixed>"⟩] := by
  intro f
  have hmarks : MarksNamed f.text := by decide +kernel
  have hvars : f.localVars = .ok [⟨"$a", "int64_t"⟩, ⟨"$b", "array<mixed>"⟩] := by decide +kernel
  have hlines : ((Text.lines f.text).filter fun line => LooksLocal f.indent line) =
      ["  int64_t v$a;", "  array<mixed>\tv$b, v$c;"] := by decide +kernel
  obtain ⟨vs, hvs, hdeclared, -⟩ := f.localVars_declared hmarks
  rw [hlines, ← Except.ok.inj (hvars.symm.trans hvs)] at hdeclared
  exact ⟨hmarks, hvars, hdeclared⟩

end FunctionSource

end GenScope.Cpp
