import GenScope.Proofs.Query.Words

/-!
# The words of a query as maximal runs

A maximal run of a text is a stretch without separators that is bounded on each side by a separator or by
the end of the text. What a text is cut into are the maximal runs, all of them and in the order in which they
stand (`areMaximalRuns_iff`): the cut at one separator parts the runs before it from those behind it. A query
is cut after it is lower-cased as a whole. As lower-casing leaves alone what it gives, the words joined by
spaces are cut into the same words again (`queryTokens_maximal_runs`).
-/

namespace GenScope

namespace Text

variable {sep : Char → Bool} {c : Char} {s u v : Text} {us vs ws : List Text}

/-! ### Stretches -/

/-- A part of a text, with what stands before it and behind it. -/
structure Stretch where
  before : Text
  word : Text
  after : Text

namespace Stretch

variable {p q : Stretch}

def text (p : Stretch) : Text := p.before ++ p.word ++ p.after

/-- The first stretch begins further in front. -/
def Precedes (p q : Stretch) : Prop := p.before.length < q.before.length

instance : Std.Irrefl Precedes := ⟨fun p => Nat.lt_irrefl p.before.length⟩

instance : Std.Antisymm Precedes := ⟨fun _ _ hpq hqp => absurd hqp (Nat.lt_asymm hpq)⟩

/-- The stretch holds no separator and is not part of a longer one that holds none. -/
structure IsMaximalRun (p : Stretch) (sep : Char → Bool) : Prop where
  nonempty : p.word ≠ []
  word : ∀ c ∈ p.word, sep c = false
  before : ∀ c ∈ p.before.getLast?, sep c = true
  after : ∀ c ∈ p.after.head?, sep c = true

/-- The same stretch of a text that goes on. -/
def extend (p : Stretch) (t : Text) : Stretch := { p with after := p.after ++ t }

/-- The same stretch of a text that begins further in front. -/
def shift (t : Text) (p : Stretch) : Stretch := { p with before := t ++ p.before }

theorem text_extend (p : Stretch) (t : Text) : (p.extend t).text = p.text ++ t := by
  simp [text, extend]

theorem text_shift (t : Text) (p : Stretch) : (p.shift t).text = t ++ p.text := by
  simp [text, shift]

theorem isMaximalRun_extend_iff (hc : sep c = true) :
    (p.extend (c :: v)).IsMaximalRun sep ↔ p.IsMaximalRun sep := by
  have hafter : (∀ d ∈ (p.after ++ c :: v).head?, sep d = true) ↔ ∀ d ∈ p.after.head?, sep d = true := by
    cases p.after with
    | nil => simp [hc]
    | cons d after => simp
  exact ⟨fun h => ⟨h.nonempty, h.word, h.before, hafter.1 h.after⟩,
    fun h => ⟨h.nonempty, h.word, h.before, hafter.2 h.after⟩⟩

theorem isMaximalRun_shift_iff (hc : sep c = true) :
    (p.shift (u ++ [c])).IsMaximalRun sep ↔ p.IsMaximalRun sep := by
  have hbefore : (∀ d ∈ (u ++ [c] ++ p.before).getLast?, sep d = true) ↔
      ∀ d ∈ p.before.getLast?, sep d = true := by
    rcases List.eq_nil_or_concat p.before with h | ⟨before, d, h⟩
    · simp [h, hc]
    · rw [h, List.concat_eq_append, ← List.append_assoc, List.getLast?_concat, List.getLast?_concat]
  exact ⟨fun h => ⟨h.nonempty, h.word, hbefore.1 h.before, h.after⟩,
    fun h => ⟨h.nonempty, h.word, hbefore.2 h.before, h.after⟩⟩

theorem eq_extend_or_eq_shift (hp : c ∉ p.word) (h : p.text = u ++ c :: v) :
    (∃ q : Stretch, q.text = u ∧ p = q.extend (c :: v)) ∨
      ∃ q : Stretch, q.text = v ∧ p = q.shift (u ++ [c]) := by
  obtain ⟨before, word, after⟩ := p
  simp only [text, extend, shift] at *
  rcases List.append_eq_append_iff.1 h with ⟨w, rfl, hafter⟩ | ⟨w, hfront, hrest⟩
  · exact .inl ⟨⟨before, word, w⟩, rfl, by rw [hafter]⟩
  · cases w with
    | nil => exact .inl ⟨⟨before, word, []⟩, by simpa using hfront, by simpa using hrest.symm⟩
    | cons d w =>
      obtain ⟨rfl, rfl⟩ := List.cons.inj hrest
      rcases List.append_eq_append_iff.1 hfront with ⟨x, -, hword⟩ | ⟨x, hbefore, hword⟩
      · exact absurd (by simp [hword]) hp
      · cases x with
        | nil => exact absurd (by rw [← List.nil_append word, ← hword]; simp) hp
        | cons d x =>
          obtain ⟨rfl, rfl⟩ := List.cons.inj hword
          exact .inr ⟨⟨x, word, after⟩, rfl, by simp [hbefore]⟩

end Stretch

/-! ### All maximal runs -/

/-- The words are those of the maximal runs of the text, of each one once and in their order. -/
def AreMaximalRuns (sep : Char → Bool) (s : Text) (ws : List Text) : Prop :=
  ∃ ps : List Stretch, ps.map (·.word) = ws ∧ ps.Pairwise Stretch.Precedes ∧
    ∀ p, p ∈ ps ↔ p.text = s ∧ p.IsMaximalRun sep

theorem AreMaximalRuns.unique (hu : AreMaximalRuns sep s us) (hv : AreMaximalRuns sep s vs) : us = vs := by
  obtain ⟨ps, rfl, hps, hp⟩ := hu
  obtain ⟨qs, rfl, hqs, hq⟩ := hv
  rw [hps.eq_of_mem_iff hqs fun p => (hp p).trans (hq p).symm]

theorem areMaximalRuns_of_forall (h : ∀ c ∈ s, sep c = false) :
    AreMaximalRuns sep s (if s = [] then [] else [s]) := by
  refine ⟨if s = [] then [] else [⟨[], s, []⟩], by split <;> rfl, by split <;> simp, fun p => ?_⟩
  constructor
  · intro hp
    split at hp
    · cases hp
    · rename_i hs
      obtain rfl := List.mem_singleton.1 hp
      exact ⟨by simp [Stretch.text], hs, h, by simp, by simp⟩
  · obtain ⟨before, word, after⟩ := p
    rintro ⟨htext, hrun⟩
    have hbefore : before = [] := by
      rw [← List.getLast?_eq_none_iff, Option.eq_none_iff_forall_not_mem]
      intro c hc
      have hmem : c ∈ s := by simp [← htext, Stretch.text, List.mem_of_getLast? hc]
      exact absurd (hrun.before c hc) (by simp [h c hmem])
    have hafter : after = [] := by
      rw [← List.head?_eq_none_iff, Option.eq_none_iff_forall_not_mem]
      intro c hc
      have hmem : c ∈ s := by simp [← htext, Stretch.text, List.mem_of_head? hc]
      exact absurd (hrun.after c hc) (by simp [h c hmem])
    subst hbefore hafter
    obtain rfl : word = s := by simpa [Stretch.text] using htext
    rw [if_neg hrun.nonempty]
    exact List.mem_singleton_self _

/-- The runs before a separator, and then those behind it. -/
theorem AreMaximalRuns.append_cons (hc : sep c = true) (hu : AreMaximalRuns sep u us)
    (hv : AreMaximalRuns sep v vs) : AreMaximalRuns sep (u ++ c :: v) (us ++ vs) := by
  obtain ⟨ps, rfl, hps, hp⟩ := hu
  obtain ⟨qs, rfl, hqs, hq⟩ := hv
  refine ⟨ps.map (·.extend (c :: v)) ++ qs.map (·.shift (u ++ [c])), ?_, ?_, fun r => ?_⟩
  · rw [List.map_append, List.map_map, List.map_map]
    rfl
  · rw [List.pairwise_append]
    refine ⟨List.pairwise_map.2 hps, List.pairwise_map.2 (hqs.imp ?_), ?_⟩
    · intro q q' hlt
      simpa [Stretch.Precedes, Stretch.shift] using hlt
    · simp only [List.mem_map]
      rintro _ ⟨p, hmem, rfl⟩ _ ⟨q, -, rfl⟩
      have htext := congrArg List.length ((hp p).1 hmem).1
      simp only [Stretch.text, List.length_append] at htext
      simp only [Stretch.Precedes, Stretch.extend, Stretch.shift, List.length_append, List.length_singleton]
      omega
  · simp only [List.mem_append, List.mem_map]
    constructor
    · rintro (⟨p, hmem, rfl⟩ | ⟨q, hmem, rfl⟩)
      · obtain ⟨rfl, hrun⟩ := (hp p).1 hmem
        exact ⟨p.text_extend _, (Stretch.isMaximalRun_extend_iff hc).2 hrun⟩
      · obtain ⟨rfl, hrun⟩ := (hq q).1 hmem
        exact ⟨by simp [q.text_shift], (Stretch.isMaximalRun_shift_iff hc).2 hrun⟩
    · rintro ⟨htext, hrun⟩
      have hmem : c ∉ r.word := fun h => by simp [hrun.word c h] at hc
      rcases Stretch.eq_extend_or_eq_shift hmem htext with ⟨p, hpu, rfl⟩ | ⟨q, hqv, rfl⟩
      · exact .inl ⟨p, (hp p).2 ⟨hpu, (Stretch.isMaximalRun_extend_iff hc).1 hrun⟩, rfl⟩
      · exact .inr ⟨q, (hq q).2 ⟨hqv, (Stretch.isMaximalRun_shift_iff hc).1 hrun⟩, rfl⟩

theorem areMaximalRuns_runs (sep : Char → Bool) (s : Text) : AreMaximalRuns sep s (runs sep s) := by
  by_cases h : ∀ c ∈ s, sep c = false
  · have hruns : runs sep s = if s = [] then [] else [s] := by
      split
      · rename_i hs
        rw [hs]
        rfl
      · rename_i hs
        exact runs_of_forall hs h
    rw [hruns]
    exact areMaximalRuns_of_forall h
  · push Not at h
    obtain ⟨c, hmem, hc⟩ := h
    obtain ⟨u, v, hs⟩ := List.append_of_mem hmem
    have hc : sep c = true := by simpa using hc
    have hlen : s.length = u.length + (v.length + 1) := by rw [hs, List.length_append, List.length_cons]
    rw [hs, runs_append_cons hc]
    exact (areMaximalRuns_runs sep u).append_cons hc (areMaximalRuns_runs sep v)
termination_by s.length
decreasing_by all_goals omega

theorem areMaximalRuns_iff : AreMaximalRuns sep s ws ↔ runs sep s = ws :=
  ⟨(areMaximalRuns_runs sep s).unique, fun h => h ▸ areMaximalRuns_runs sep s⟩

/-! ### Runs and the characters of the text -/

theorem runs_cons_of_sep (hc : sep c = true) (s : Text) : runs sep (c :: s) = runs sep s :=
  runs_append_cons hc [] s

/-- The runs hold every character that is not a separator, once and in its place. -/
theorem flatten_runs (sep : Char → Bool) (s : Text) : (runs sep s).flatten = s.filter (!sep ·) := by
  have hfilter : ∀ ps : List Text, (ps.filter (!·.isEmpty)).flatten = ps.flatten := fun ps => by
    induction ps with
    | nil => rfl
    | cons p ps ih => cases p <;> simp [ih]
  rw [runs, hfilter]
  induction s with
  | nil => rfl
  | cons c s ih =>
    rw [split, List.filter_cons]
    by_cases hc : sep c = true
    · simp [hc, ih]
    · cases hs : split sep s with
      | nil => exact absurd hs (split_ne_nil sep s)
      | cons w ws => simp_all

theorem runs_trim (hblank : ∀ c, isBlank c = true → sep c = true) (s : Text) :
    runs sep (trim s) = runs sep s := by
  have hstart : ∀ s : Text, runs sep (trimStart s) = runs sep s := fun s => by
    induction s with
    | nil => rfl
    | cons c s ih =>
      rw [trimStart, List.dropWhile_cons]
      split
      · rename_i hc
        rw [runs_cons_of_sep (hblank c hc)]
        exact ih
      · rfl
  have hend : ∀ s : Text, runs sep (trimEnd s) = runs sep s := fun s => by
    induction s using List.reverseRecOn with
    | nil => rfl
    | append_singleton s c ih =>
      rw [trimEnd, List.reverse_concat, List.dropWhile_cons]
      split
      · rename_i hc
        have hcut := runs_append_cons (hblank c hc) s []
        have hnil : runs sep [] = [] := rfl
        rw [hcut, hnil, List.append_nil]
        exact ih
      · simp
  rw [trim, hend, hstart]

end Text

/-! ### Words -/

theorem queryTokens_eq_runs (raw : Text) : queryTokens raw = Text.runs isQuerySeparator (Text.lower raw) :=
  Text.runs_trim (fun c hc => by simp [isQuerySeparator, hc]) (Text.lower raw)

/-- A query's words are the maximal runs of the lower-cased text, so that they are not empty, hold no separator
and all other characters; joined by spaces they are the words of a query again. -/
theorem queryTokens_maximal_runs (raw : Text) :
    (∀ ws, Text.AreMaximalRuns isQuerySeparator (Text.lower raw) ws ↔ queryTokens raw = ws) ∧
    (∀ w ∈ queryTokens raw, w ≠ [] ∧ ∀ c ∈ w, isQuerySeparator c = false) ∧
    (queryTokens raw).flatten = (Text.lower raw).filter (!isQuerySeparator ·) ∧
    queryTokens (Text.join " " (queryTokens raw)) = queryTokens raw := by
  have hword : ∀ w ∈ queryTokens raw, w ≠ [] ∧ ∀ c ∈ w, c ∈ Text.lower raw ∧ isQuerySeparator c = false := by
    rw [queryTokens_eq_runs]
    exact fun w hw => Text.mem_runs hw
  refine ⟨fun ws => ?_, fun w hw => ?_, ?_, ?_⟩
  · rw [queryTokens_eq_runs]
    exact Text.areMaximalRuns_iff
  · obtain ⟨hne, hchars⟩ := hword w hw
    exact ⟨hne, fun c hc => (hchars c hc).2⟩
  · rw [queryTokens_eq_runs, Text.flatten_runs]
  · -- the joined words hold small letters only, and one more character, the space
    have hsmall : Text.lower (Text.join " " (queryTokens raw)) = Text.join " " (queryTokens raw) := by
      refine Text.lowerAfter_of_forall_isSmall (fun c hc => ?_) []
      rcases Text.mem_or_mem_of_mem_join hc with hc | ⟨w, hw, hc⟩
      · obtain rfl : c = ' ' := List.mem_singleton.1 hc
        decide +kernel
      · exact Text.isSmall_of_mem_lowerAfter ((hword w hw).2 c hc).1
    rw [queryTokens_eq_runs, hsmall]
    exact Text.runs_join (by decide) fun w hw => ⟨(hword w hw).1, fun c hc => ((hword w hw).2 c hc).2⟩

example : queryTokens "\\VK\\Post,analyze+rank:now(ΑΣ)" = ["vk", "post", "analyze", "rank", "now", "ας"] := by
  decide +kernel

end GenScope
