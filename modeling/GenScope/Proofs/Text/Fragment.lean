import Mathlib
import GenScope.Text.Blank
import GenScope.Text.WordChar

/-!
# Fragments of a text

The searches of `Text.Basic` in terms of concatenation: a fragment starts, ends or occurs in a text
(`startsWith_iff`, `endsWith_iff`, `occursIn_iff`), what follows it (`after?_eq_some_iff`), where it
stands first (`of_position?_eq_some`), where a character stands last (`splitLast?_append_cons`), when
replacing changes nothing (`replace_of_not_infix`) and which maps do not see it (`map_replace`).
-/

namespace GenScope.Text

/-! ### Fragments -/

theorem startsWith_iff {s fragment : Text} : s.startsWith fragment = true ↔ fragment <+: s :=
  List.isPrefixOf_iff_prefix

theorem endsWith_iff {s fragment : Text} : s.endsWith fragment = true ↔ fragment <:+ s :=
  List.isSuffixOf_iff_suffix

theorem occursIn_iff {s fragment : Text} : occursIn fragment s = true ↔ fragment <:+: s := by
  induction s with
  | nil => simp [occursIn, List.infix_nil]
  | cons c s ih => rw [occursIn, Bool.or_eq_true, startsWith_iff, ih, List.infix_cons_iff]

theorem after?_eq_some_iff {fragment s rest : Text} :
    after? fragment s = some rest ↔ s = fragment ++ rest := by
  unfold after?
  split
  · rename_i h
    obtain ⟨t, rfl⟩ := startsWith_iff.1 h
    simp [eq_comm]
  · rename_i h
    refine iff_of_false (by simp) fun hs => h (startsWith_iff.2 ⟨rest, hs.symm⟩)

@[simp] theorem after?_append (fragment rest : Text) : after? fragment (fragment ++ rest) = some rest :=
  after?_eq_some_iff.2 rfl

theorem after?_eq_none_iff {fragment s : Text} : after? fragment s = none ↔ ¬ fragment <+: s := by
  unfold after?
  rw [← startsWith_iff]
  split <;> simp_all

theorem isPrefix_of_isPrefix_append_cons {fragment s t : Text} {c : Char} (hc : c ∉ fragment)
    (h : fragment <+: s ++ c :: t) : fragment <+: s := by
  refine List.prefix_of_prefix_length_le h (List.prefix_append ..) ?_
  by_contra hlt
  obtain ⟨u, hu⟩ := h
  have hmem : c ∈ fragment := by
    have hget : (fragment ++ u)[s.length]? = some c := by rw [hu]; simp
    rw [List.getElem?_append_left (by omega)] at hget
    exact List.mem_of_getElem? hget
  exact hc hmem

theorem append_eq_append_cons {u s v t : Text} {c : Char} (hc : c ∉ u) (h : u ++ s = v ++ c :: t) :
    ∃ w, v = u ++ w ∧ s = w ++ c :: t := by
  rcases List.append_eq_append_iff.1 h with ⟨w, hv, hs⟩ | ⟨w, hu, hct⟩
  · exact ⟨w, hv, hs⟩
  · cases w with
    | nil => exact ⟨[], by simpa using hu.symm, by simpa using hct.symm⟩
    | cons d w =>
      obtain ⟨rfl, -⟩ := List.cons.inj hct
      exact absurd (by simp [hu]) hc

theorem run_append_cons_isPrefix_iff {p : Char → Bool} {u v s t : Text} {c : Char}
    (hu : ∀ d ∈ u, p d = true) (hv : ∀ d ∈ v, p d = true) (hc : p c = false)
    (ht : ∀ d, t.head? = some d → p d = false) : u ++ c :: s <+: v ++ t ↔ u = v ∧ c :: s <+: t := by
  constructor
  · rintro ⟨r, hr⟩
    have htake : (v ++ t).takeWhile p = v := by
      rw [List.takeWhile_append_of_pos hv]
      cases t with
      | nil => simp
      | cons d t => simp [ht d rfl]
    have huv : u = v := by
      rw [← htake, ← hr, List.append_assoc, List.takeWhile_append_of_pos hu]
      simp [hc]
    subst huv
    rw [List.append_assoc] at hr
    exact ⟨rfl, r, List.append_cancel_left hr⟩
  · rintro ⟨rfl, h⟩
    exact (List.prefix_append_right_inj u).2 h

theorem of_position?_eq_some {fragment s : Text} {n : Nat} (h : position? fragment s = some n) :
    (∃ rest, s = s.take n ++ (fragment ++ rest)) ∧
      ∀ before rest, s = before ++ (fragment ++ rest) → n ≤ before.length := by
  induction s generalizing n with
  | nil =>
    rw [position?] at h
    split at h
    · rename_i hf
      obtain rfl := Option.some.inj h
      exact ⟨⟨[], by simp [List.isEmpty_iff.1 hf]⟩, fun _ _ _ => Nat.zero_le _⟩
    · cases h
  | cons c s ih =>
    rw [position?] at h
    split at h
    · rename_i hc
      obtain rfl := Option.some.inj h
      obtain ⟨rest, hrest⟩ := startsWith_iff.1 hc
      exact ⟨⟨rest, hrest.symm⟩, fun _ _ _ => Nat.zero_le _⟩
    · rename_i hc
      obtain ⟨m, hm, rfl⟩ := Option.map_eq_some_iff.1 h
      obtain ⟨⟨rest, hrest⟩, hfirst⟩ := ih hm
      refine ⟨⟨rest, congrArg (c :: ·) hrest⟩, fun before rest hs => ?_⟩
      cases before with
      | nil => exact absurd (startsWith_iff.2 ⟨rest, hs.symm⟩) hc
      | cons d before => exact Nat.succ_le_succ (hfirst before rest (List.cons.inj hs).2)

theorem position?_eq_none_iff {fragment s : Text} : position? fragment s = none ↔ ¬ fragment <:+: s := by
  induction s with
  | nil => simp [position?, List.infix_nil]
  | cons c s ih =>
    rw [position?, List.infix_cons_iff, not_or, ← startsWith_iff, ← ih]
    split <;> simp_all

/-! ### Last occurrences -/

theorem splitLast?_eq_none {c : Char} {s : Text} (h : c ∉ s) : splitLast? c s = none := by
  induction s with
  | nil => rfl
  | cons d s ih =>
    obtain ⟨hd, hs⟩ := not_or.1 (mt List.mem_cons.2 h)
    simp [splitLast?, ih hs, Ne.symm hd]

theorem splitLast?_append_cons {c : Char} {s : Text} (before : Text) (h : c ∉ s) :
    splitLast? c (before ++ c :: s) = some (before, s) := by
  induction before with
  | nil => simp [splitLast?, splitLast?_eq_none h]
  | cons d before ih => simp [splitLast?, ih]

/-- The text ends with a line feed, or is empty. -/
def IsWholeLines (s : Text) : Prop := ∀ c, s.getLast? = some c → c = '\n'

theorem IsWholeLines.of_append {s t : Text} (h : IsWholeLines (s ++ t)) : IsWholeLines t :=
  fun c hc => h c (by simp [hc])

theorem IsWholeLines.eq_append {s : Text} (h : IsWholeLines s) (hs : s ≠ []) :
    ∃ t, s = t ++ ['\n'] := by
  have hlast := h _ (List.getLast?_eq_some_getLast hs)
  exact ⟨s.dropLast, by rw [← hlast, List.dropLast_append_getLast hs]⟩

theorem IsWholeLines.append {s t : Text} (hs : IsWholeLines s) (ht : IsWholeLines t) : IsWholeLines (s ++ t) := by
  intro c hc
  rw [List.getLast?_append, Option.or_eq_some_iff] at hc
  rcases hc with hc | ⟨-, hc⟩
  · exact ht c hc
  · exact hs c hc

theorem lastLine_append {s line : Text} (hs : IsWholeLines s) (h : '\n' ∉ line) :
    lastLine (s ++ line) = line := by
  unfold lastLine
  by_cases hnil : s = []
  · simp [hnil, splitLast?_eq_none h]
  · obtain ⟨t, rfl⟩ := hs.eq_append hnil
    simp [splitLast?_append_cons t h]

theorem exists_append_lastLine (s : Text) :
    ∃ lines, IsWholeLines lines ∧ '\n' ∉ lastLine s ∧ s = lines ++ lastLine s := by
  obtain ⟨lines, line, hlines, hline, rfl⟩ :
      ∃ lines line, IsWholeLines lines ∧ '\n' ∉ line ∧ s = lines ++ line := by
    induction s with
    | nil => exact ⟨[], [], fun c hc => (by cases hc), by simp, rfl⟩
    | cons c s ih =>
      obtain ⟨lines, line, hlines, hline, rfl⟩ := ih
      by_cases hc : lines = [] ∧ c ≠ '\n'
      · obtain ⟨rfl, hc⟩ := hc
        exact ⟨[], c :: line, hlines, by simp [Ne.symm hc, hline], rfl⟩
      · refine ⟨c :: lines, line, fun d hd => ?_, hline, rfl⟩
        cases lines with
        | nil =>
          have hc : c = '\n' := by simpa using hc
          simpa [hc, eq_comm] using hd
        | cons e lines => exact hlines d (by simpa using hd)
  rw [lastLine_append hlines hline]
  exact ⟨lines, hlines, hline, rfl⟩

theorem lastLine_append_of_isWholeLines {s : Text} (hs : IsWholeLines s) (t : Text) :
    lastLine (s ++ t) = lastLine t := by
  obtain ⟨lines, hlines, hline, ht⟩ := exists_append_lastLine t
  rw [ht, ← List.append_assoc, lastLine_append (hs.append hlines) hline, ← ht]

/-! ### Fragments within lines -/

theorem infix_append_newline_iff {fragment s t : Text} (h : '\n' ∉ fragment) :
    fragment <:+: s ++ '\n' :: t ↔ fragment <:+: s ∨ fragment <:+: t := by
  constructor
  · rintro ⟨x, y, hxy⟩
    rcases List.append_eq_append_iff.1 hxy with ⟨w, rfl, -⟩ | ⟨w, hx, hy⟩
    · exact .inl ⟨x, w, rfl⟩
    · cases w with
      | nil => exact .inl ⟨x, [], by simpa using hx⟩
      | cons c w =>
        obtain ⟨rfl, rfl⟩ := List.cons.inj hy
        rcases List.append_eq_append_iff.1 hx with ⟨u, hs, hf⟩ | ⟨u, rfl, hw⟩
        · exact absurd (by simp [hf]) h
        · cases u with
          | nil =>
            obtain rfl : '\n' :: w = fragment := hw
            exact absurd List.mem_cons_self h
          | cons d u =>
            obtain ⟨-, rfl⟩ := List.cons.inj hw
            exact .inr ⟨u, y, by simp⟩
  · rintro (hf | hf)
    · exact hf.trans (List.infix_append_left ..)
    · exact hf.trans ⟨s ++ ['\n'], [], by simp⟩

/-- A fragment without a line feed stands in whole lines or behind them. -/
theorem infix_append_iff {fragment s : Text} (h : '\n' ∉ fragment) (hs : IsWholeLines s) (t : Text) :
    fragment <:+: s ++ t ↔ fragment <:+: s ∨ fragment <:+: t := by
  by_cases hnil : s = []
  · subst hnil
    refine ⟨.inr, fun hf => hf.elim (fun hf => ?_) id⟩
    rw [List.infix_nil.1 hf]
    exact List.nil_infix
  · obtain ⟨s, rfl⟩ := hs.eq_append hnil
    rw [List.append_assoc, List.singleton_append, infix_append_newline_iff h, infix_append_newline_iff h, or_assoc]
    refine or_congr_right ⟨.inr, fun hf => hf.elim (fun hf => ?_) id⟩
    rw [List.infix_nil.1 hf]
    exact List.nil_infix

/-! ### Replacing -/

theorem replaceFrom_skip (old new s : Text) (n : Nat) :
    replaceFrom old new n s = replace old new (s.drop n) := by
  induction s generalizing n with
  | nil => cases n <;> simp [replace, replaceFrom]
  | cons c s ih =>
    cases n with
    | zero => rfl
    | succ n => simpa [replaceFrom] using ih n

/-- A fragment that does not stand in a text is not completed by what follows, if that starts with another
character. -/
theorem replace_append_of_not_infix {old new u t : Text} (hu : ¬ old <:+: u) (ht : ∀ c ∈ t.head?, c ∉ old) :
    replace old new (u ++ t) = u ++ replace old new t := by
  induction u with
  | nil => rfl
  | cons c u ih =>
    obtain ⟨hp, hu⟩ := not_or.1 (mt List.infix_cons_iff.2 hu)
    have hstart : ¬ startsWith (c :: (u ++ t)) old = true := fun h => hp <| by
      cases t with
      | nil => simpa using startsWith_iff.1 h
      | cons d t => exact isPrefix_of_isPrefix_append_cons (ht d (by simp)) (startsWith_iff.1 h)
    have ih := ih hu
    unfold replace at ih ⊢
    rw [List.cons_append, replaceFrom, if_neg hstart, ih, List.cons_append]

theorem replace_of_not_infix {old new s : Text} (h : ¬ old <:+: s) : replace old new s = s := by
  have hend : replace old new (s ++ []) = s ++ replace old new [] :=
    replace_append_of_not_infix h fun c hc => by cases hc
  rw [List.append_nil] at hend
  rw [hend, show replace old new [] = [] from rfl, List.append_nil]

theorem replace_append (old new s : Text) (h : old ≠ []) :
    replace old new (old ++ s) = new ++ replace old new s := by
  cases old with
  | nil => exact absurd rfl h
  | cons c old =>
    have hc : startsWith (c :: (old ++ s)) (c :: old) = true :=
      startsWith_iff.2 (List.prefix_append (c :: old) s)
    show replaceFrom (c :: old) new 0 (c :: (old ++ s)) = _
    rw [replaceFrom, if_pos hc, replaceFrom_skip]
    simp

theorem replace_append_of_not_mem {c : Char} {old new s : Text} (h : c ∉ s) (t : Text) :
    replace (c :: old) new (s ++ t) = s ++ replace (c :: old) new t := by
  induction s with
  | nil => rfl
  | cons d s ih =>
    obtain ⟨hd, hs⟩ := not_or.1 (mt List.mem_cons.2 h)
    have ih := ih hs
    unfold replace at ih ⊢
    simp [replaceFrom, startsWith, hd, ih]

theorem replace_cons_of_not_mem {old new : Text} {c : Char} (hne : old ≠ []) (hc : c ∉ old) (t : Text) :
    replace old new (c :: t) = c :: replace old new t := by
  obtain ⟨d, old, rfl⟩ := List.exists_cons_of_ne_nil hne
  have hd : d ∉ [c] := fun h => hc (List.mem_singleton.1 h ▸ List.mem_cons_self)
  exact replace_append_of_not_mem hd t

theorem map_replace {old new : Text} {f : Char → Char} (hne : old ≠ []) (hf : new.map f = old.map f) (s : Text) :
    (replace old new s).map f = s.map f := by
  suffices ∀ skip, (replaceFrom old new skip s).map f = (s.drop skip).map f from this 0
  induction s with
  | nil => intro skip; cases skip <;> rfl
  | cons c s ih =>
    intro skip
    cases skip with
    | succ skip => rw [replaceFrom, ih, List.drop_succ_cons]
    | zero =>
      rw [replaceFrom]
      split
      · rename_i hold
        obtain ⟨rest, hrest⟩ := startsWith_iff.1 hold
        obtain ⟨d, old, rfl⟩ := List.exists_cons_of_ne_nil hne
        obtain ⟨rfl, rfl⟩ := List.cons.inj hrest
        rw [List.map_append, ih, hf, ← List.map_append]
        simp
      · rw [List.map_cons, ih]
        rfl

/-! ### Trimming -/

theorem trimStart_eq_self_iff {s : Text} :
    trimStart s = s ↔ ∀ c, s.head? = some c → isBlank c = false := by
  cases s with
  | nil => simp [trimStart]
  | cons c s =>
    have hlen : (s.dropWhile isBlank).length ≤ s.length := (List.dropWhile_sublist _).length_le
    by_cases hc : isBlank c = true
    · refine iff_of_false (fun h => ?_) (by simp [hc])
      have := congrArg List.length h
      simp only [trimStart, List.dropWhile_cons, hc, ↓reduceIte, List.length_cons] at this
      omega
    · simp [trimStart, hc]

theorem trimEnd_eq_self_iff {s : Text} :
    trimEnd s = s ↔ ∀ c, s.getLast? = some c → isBlank c = false := by
  have h : trimEnd s = s ↔ trimStart s.reverse = s.reverse := List.reverse_eq_iff
  rw [h, trimStart_eq_self_iff, List.head?_reverse]

theorem trim_eq_self_iff {s : Text} :
    trim s = s ↔ (∀ c, s.head? = some c → isBlank c = false) ∧
      ∀ c, s.getLast? = some c → isBlank c = false := by
  rw [← trimStart_eq_self_iff, ← trimEnd_eq_self_iff, trim]
  constructor
  · intro h
    have hend : (trimEnd (trimStart s)).length ≤ (trimStart s).length := by
      simpa [trimEnd] using (List.dropWhile_sublist isBlank (l := (trimStart s).reverse)).length_le
    have hstart : trimStart s = s :=
      (List.dropWhile_suffix isBlank).eq_of_length_le (by rw [h] at hend; exact hend)
    exact ⟨hstart, by rwa [hstart] at h⟩
  · rintro ⟨hstart, hend⟩
    rw [hstart, hend]

theorem trim_of_forall {s : Text} (h : ∀ c ∈ s, isBlank c = false) : trim s = s :=
  trim_eq_self_iff.2 ⟨fun c hc => h c (List.mem_of_head? hc), fun c hc => h c (List.mem_of_getLast? hc)⟩

theorem trim_trim (s : Text) : trim (trim s) = trim s := by
  have hblank : ∀ (t : Text) c, (t.dropWhile isBlank).head? = some c → isBlank c = false := by
    intro t c hc
    have := List.head?_dropWhile_not isBlank t
    rw [hc] at this
    exact this
  have hstart : ∀ c, (trimStart s).head? = some c → isBlank c = false := hblank s
  have hprefix : trim s <+: trimStart s := by
    have := List.dropWhile_suffix isBlank (l := (trimStart s).reverse)
    rw [← List.reverse_prefix] at this
    simpa [trim, trimEnd] using this
  refine trim_eq_self_iff.2 ⟨fun c hc => ?_, fun c hc => ?_⟩
  · obtain ⟨t, ht⟩ := hprefix
    obtain ⟨u, hu⟩ := List.head?_eq_some_iff.1 hc
    exact hstart c (by rw [← ht, hu]; rfl)
  · refine hblank (trimStart s).reverse c ?_
    rwa [← List.getLast?_reverse]

theorem trim_cons_blank {c : Char} (hc : isBlank c = true) (s : Text) : trim (c :: s) = trim s := by
  simp [trim, trimStart, hc]

theorem trim_cons_of_not_blank {c : Char} (hc : isBlank c = false) (s : Text) : ∃ s', trim (c :: s) = c :: s' := by
  have hstart : trimStart (c :: s) = c :: s := trimStart_eq_self_iff.2 (by simp [hc])
  rw [trim, hstart, trimEnd, List.reverse_cons, List.dropWhile_append]
  split
  · exact ⟨[], by simp [hc]⟩
  · exact ⟨(s.reverse.dropWhile isBlank).reverse, by simp⟩

theorem mem_of_mem_trim {s : Text} {c : Char} (h : c ∈ trim s) : c ∈ s := by
  have hstart : trimStart s <:+ s := List.dropWhile_suffix _
  have hend : c ∈ (trimStart s).reverse := (List.dropWhile_suffix isBlank).subset (List.mem_reverse.1 h)
  exact hstart.subset (List.mem_reverse.1 hend)

theorem trim_eq_nil_iff {s : Text} : trim s = [] ↔ isAllBlank s = true := by
  have hend : ∀ t : Text, trimEnd t = [] ↔ ∀ c ∈ t, isBlank c = true := fun t => by
    rw [trimEnd, List.reverse_eq_nil_iff, List.dropWhile_eq_nil_iff]
    simp
  rw [trim, hend, isAllBlank, List.all_eq_true]
  refine ⟨fun h => List.dropWhile_eq_nil_iff.1 ?_, fun h c hc => h c ((List.dropWhile_sublist _).subset hc)⟩
  -- a stretch that is blank is dropped as a whole
  cases hs : s.dropWhile isBlank with
  | nil => rfl
  | cons c t =>
    have hc := List.head?_dropWhile_not isBlank s
    rw [hs] at hc
    rw [trimStart, hs] at h
    exact absurd (h c List.mem_cons_self) (by simpa using hc)

theorem trim_blank_append {u : Text} (hu : ∀ c ∈ u, isBlank c = true) (s : Text) :
    trim (u ++ s) = trim s := by
  induction u with
  | nil => rfl
  | cons c u ih =>
    rw [List.cons_append, trim_cons_blank (hu c (by simp)), ih fun d hd => hu d (by simp [hd])]

theorem trim_append_blank {v : Text} (hv : ∀ c ∈ v, isBlank c = true) (s : Text) :
    trim (s ++ v) = trim s := by
  have hdrop : ∀ w : Text, (∀ c ∈ w, isBlank c = true) → w.dropWhile isBlank = [] := fun w hw =>
    List.dropWhile_eq_nil_iff.2 hw
  rw [trim, trim, trimStart, trimStart, List.dropWhile_append, hdrop v hv]
  split
  · rename_i hs
    rw [List.isEmpty_iff.1 hs]
  · rw [trimEnd, trimEnd, List.reverse_append, List.dropWhile_append,
      hdrop v.reverse fun c hc => hv c (List.mem_reverse.1 hc)]
    rfl

end GenScope.Text
