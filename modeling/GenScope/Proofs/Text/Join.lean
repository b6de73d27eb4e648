import GenScope.Proofs.Text.Fragment
import GenScope.Text.Lowercase

/-!
# Joined pieces

A text that joins pieces is cut into the pieces again (`split_join`). The first double separator
behind joined pieces is found where it stands (`replaceFirst_join_append`), and lower-casing and
substituting go through to the pieces (`map_join`, `substitute_join`, `lower_of_forall`).
-/

namespace GenScope.Text

/-! ### Joining -/

@[simp] theorem join_nil (sep : Text) : join sep [] = [] := rfl

@[simp] theorem join_singleton (sep d : Text) : join sep [d] = d := by simp [join]

theorem join_cons_cons (sep d e : Text) (ds : List Text) :
    join sep (d :: e :: ds) = d ++ sep ++ join sep (e :: ds) := by
  simp [join, List.intercalate_cons_cons]

theorem join_cons (c : Char) (d : Text) (ds : List Text) :
    join [c] (d :: ds) = d ++ ds.flatMap (c :: ·) := by
  induction ds generalizing d with
  | nil => simp
  | cons e ds ih => rw [join_cons_cons, ih]; simp

theorem join_append (c : Char) {ds es : List Text} (hds : ds ≠ []) (hes : es ≠ []) :
    join [c] (ds ++ es) = join [c] ds ++ c :: join [c] es := by
  obtain ⟨d, ds, rfl⟩ := List.exists_cons_of_ne_nil hds
  obtain ⟨e, es, rfl⟩ := List.exists_cons_of_ne_nil hes
  simp [join_cons]

theorem join_concat (sep : Text) {ds : List Text} (hne : ds ≠ []) (e : Text) :
    join sep (ds ++ [e]) = join sep ds ++ sep ++ e := by
  induction ds with
  | nil => exact absurd rfl hne
  | cons d ds ih =>
    cases ds with
    | nil => simp [join_cons_cons]
    | cons c ds =>
      have ih := ih (by simp)
      rw [List.cons_append] at ih
      rw [List.cons_append, List.cons_append, join_cons_cons, ih, join_cons_cons]
      simp

theorem mem_or_mem_of_mem_join {c : Char} {sep : Text} {ds : List Text} (h : c ∈ join sep ds) :
    c ∈ sep ∨ ∃ d ∈ ds, c ∈ d := by
  induction ds with
  | nil => simp at h
  | cons d ds ih =>
    cases ds with
    | nil => exact .inr ⟨d, by simp, by simpa using h⟩
    | cons e ds =>
      rw [join_cons_cons, List.mem_append, List.mem_append] at h
      rcases h with (h | h) | h
      · exact .inr ⟨d, by simp, h⟩
      · exact .inl h
      · rcases ih h with h | ⟨f, hf, hc⟩
        · exact .inl h
        · exact .inr ⟨f, by simp [hf], hc⟩

theorem not_mem_join {c : Char} {sep : Text} {ds : List Text} (hsep : c ∉ sep)
    (hds : ∀ d ∈ ds, c ∉ d) : c ∉ join sep ds := by
  intro h
  rcases mem_or_mem_of_mem_join h with h | ⟨d, hd, hc⟩
  · exact hsep h
  · exact hds d hd hc

theorem join_append_append (sep : Text) (ds : List Text) (d e : Text) :
    join sep (ds ++ [d ++ e]) = join sep (ds ++ [d]) ++ e := by
  induction ds with
  | nil => simp
  | cons c ds ih =>
    cases ds with
    | nil => simp [join_cons_cons]
    | cons b ds =>
      simp only [List.cons_append, join_cons_cons] at ih ⊢
      rw [ih]
      simp

theorem map_join (f : Char → Char) (sep : Text) (ds : List Text) :
    (join sep ds).map f = join (sep.map f) (ds.map (·.map f)) := by
  induction ds with
  | nil => rfl
  | cons d ds ih =>
    cases ds with
    | nil => simp
    | cons e ds =>
      rw [List.map_cons] at ih
      simp only [join_cons_cons, List.map_append, List.map_cons, ih]

theorem substitute_of_not_mem {old new : Char} {s : Text} (h : old ∉ s) : substitute old new s = s := by
  refine (List.map_congr_left fun c hc => ?_).trans (List.map_id s)
  have hne : c ≠ old := by rintro rfl; exact h hc
  simp [hne]

theorem length_substitute (old new : Char) (s : Text) : (substitute old new s).length = s.length :=
  List.length_map _

theorem substitute_append (old new : Char) (s t : Text) :
    substitute old new (s ++ t) = substitute old new s ++ substitute old new t :=
  List.map_append

theorem substitute_join {old new : Char} {ds : List Text} (h : ∀ d ∈ ds, old ∉ d) :
    substitute old new (join [old] ds) = join [new] ds := by
  have hds : ds.map (substitute old new) = ds :=
    (List.map_congr_left fun d hd => substitute_of_not_mem (h d hd)).trans (List.map_id ds)
  have hsep : ([old] : Text).map (fun c => if c == old then new else c) = [new] := by simp
  rw [substitute, map_join, hsep]
  exact congrArg (join [new]) hds

/-! ### Cutting -/

theorem split_of_forall {sep : Char → Bool} {s : Text} (h : ∀ c ∈ s, sep c = false) :
    split sep s = [s] := by
  induction s with
  | nil => rfl
  | cons c s ih =>
    have hs := ih fun d hd => h d (by simp [hd])
    simp [split, h c (by simp), hs]

theorem split_append_cons {sep : Char → Bool} {c : Char} (hc : sep c = true) (u v : Text) :
    split sep (u ++ c :: v) = split sep u ++ split sep v := by
  induction u with
  | nil => simp [split, hc]
  | cons d u ih =>
    rw [List.cons_append, split, split, ih]
    by_cases hd : sep d = true
    · simp [hd]
    · cases hu : split sep u with
      | nil => exact absurd hu (split_ne_nil sep u)
      | cons w ws => simp [hd]

theorem split_join {c : Char} {ds : List Text} (hne : ds ≠ []) (h : ∀ d ∈ ds, c ∉ d) :
    split (· == c) (join [c] ds) = ds := by
  have hpiece : ∀ d ∈ ds, split (· == c) d = [d] := fun d hd =>
    split_of_forall fun e he => by
      have : e ≠ c := by rintro rfl; exact h d hd he
      simpa using this
  induction ds with
  | nil => exact absurd rfl hne
  | cons d ds ih =>
    cases ds with
    | nil => simpa using hpiece d (by simp)
    | cons e ds =>
      have ih := ih (by simp) (fun f hf => h f (by simp [hf])) fun f hf => hpiece f (by simp [hf])
      rw [join_cons_cons, List.append_assoc, List.singleton_append, split_append_cons (by simp), ih,
        hpiece d (by simp)]
      rfl

theorem split_append_of_not_mem {c : Char} {s : Text} (h : c ∉ s) (v : Text) :
    ∃ w ws, split (· == c) (s ++ v) = (s ++ w) :: ws := by
  induction s with
  | nil => exact List.exists_cons_of_ne_nil (split_ne_nil _ _)
  | cons d s ih =>
    obtain ⟨hd, hs⟩ := not_or.1 (mt List.mem_cons.2 h)
    obtain ⟨w, ws, hsplit⟩ := ih hs
    exact ⟨w, ws, by simp [split, hsplit, Ne.symm hd]⟩

/-- A text stands in joined pieces where a piece starts if and only if it and what is behind it are cut into
the last of the pieces. -/
theorem stands_in_join_iff {c : Char} {x : Text} {ds : List Text} (hne : ds ≠ []) (h : ∀ d ∈ ds, c ∉ d) :
    x <+: join [c] ds ∨ (c :: x) <:+: join [c] ds ↔ ∃ before v, ds = before ++ split (· == c) (x ++ v) := by
  have hcut := split_join hne h
  constructor
  · rintro (⟨v, hv⟩ | ⟨u, v, huv⟩)
    · exact ⟨[], v, by rw [hv, hcut]; rfl⟩
    · have hjoin : join [c] ds = u ++ c :: (x ++ v) := by rw [← huv]; simp
      rw [hjoin, split_append_cons (by simp)] at hcut
      exact ⟨split (· == c) u, v, hcut.symm⟩
  · rintro ⟨before, v, rfl⟩
    by_cases hbefore : before = []
    · subst hbefore
      rw [List.nil_append, join_split]
      exact .inl (List.prefix_append ..)
    · rw [join_append c hbefore (split_ne_nil _ _), join_split]
      exact .inr ⟨join [c] before, v, by simp⟩

/-! ### The first double separator -/

theorem replaceFirst_append_of_not_mem {c : Char} {s : Text} (h : c ∉ s) (new t : Text) :
    replaceFirst [c, c] new (s ++ t) = s ++ replaceFirst [c, c] new t := by
  induction s with
  | nil => rfl
  | cons d s ih =>
    obtain ⟨hd, hs⟩ := not_or.1 (mt List.mem_cons.2 h)
    simp [replaceFirst, startsWith, hd, ih hs]

/-- No double separator starts among joined pieces, so that the first one stands behind them. -/
theorem replaceFirst_join_append {c : Char} {new : Text} {ds : List Text}
    (h : ∀ d ∈ ds, d ≠ [] ∧ c ∉ d) (t : Text) :
    replaceFirst [c, c] new (join [c] ds ++ t) = join [c] ds ++ replaceFirst [c, c] new t := by
  induction ds with
  | nil => rfl
  | cons d ds ih =>
    obtain ⟨-, hd⟩ := h d (by simp)
    cases ds with
    | nil => simpa using replaceFirst_append_of_not_mem hd _ t
    | cons e ds =>
      have ih := ih fun f hf => h f (by simp [hf])
      obtain ⟨he, hce⟩ := h e (by simp)
      obtain ⟨b, s, hs⟩ : ∃ b s, join [c] (e :: ds) ++ t = b :: s ∧ b ≠ c := by
        obtain ⟨b, e, rfl⟩ := List.exists_cons_of_ne_nil he
        have hb : b ≠ c := by rintro rfl; simp at hce
        cases ds with
        | nil => exact ⟨b, e ++ t, by simp, hb⟩
        | cons f ds => exact ⟨b, _, by rw [join_cons_cons]; rfl, hb⟩
      have hstep : replaceFirst [c, c] new (c :: (b :: s)) = c :: replaceFirst [c, c] new (b :: s) := by
        rw [replaceFirst, if_neg]
        simp [startsWith, Ne.symm hs.2]
      rw [join_cons_cons, List.append_assoc, List.append_assoc, List.singleton_append,
        replaceFirst_append_of_not_mem hd, hs.1, hstep, ← hs.1, ih]
      simp

theorem replaceFirst_append (c d : Char) (old new t : Text) :
    replaceFirst (c :: d :: old) new (c :: d :: old ++ t) = new ++ t := by
  have hp : startsWith (c :: d :: (old ++ t)) (c :: d :: old) = true :=
    startsWith_iff.2 (List.prefix_append (c :: d :: old) t)
  show replaceFirst (c :: d :: old) new (c :: (d :: (old ++ t))) = _
  rw [replaceFirst, if_pos hp]
  simp

theorem length_replaceFirst {old new : Text} (h : old.length = new.length) (s : Text) :
    (replaceFirst old new s).length = s.length := by
  induction s with
  | nil => rfl
  | cons c s ih =>
    rw [replaceFirst]
    split
    · rename_i hold
      have hle := (startsWith_iff.1 hold).length_le
      rw [List.length_append, List.length_drop]
      omega
    · rw [List.length_cons, List.length_cons, ih]

/-! ### Lower case -/

theorem lower_of_forall {s : Text} (h : ∀ c ∈ s, c.toNat < 128) : lower s = s.map Char.toLower := by
  have hafter : ∀ before, lowerAfter before s = s.map Char.toLower := by
    induction s with
    | nil => intro before; rfl
    | cons c s ih =>
      intro before
      have hc := h c (by simp)
      have hsigma : c ≠ 'Σ' := by rintro rfl; exact absurd hc (by decide)
      simp [lowerAfter, lowerChar, hc, hsigma, ih fun d hd => h d (by simp [hd])]
  exact hafter []

theorem lower_isPrefix {s t : Text} (ht : ∀ c ∈ t, c.toNat < 128) (h : s <+: t) : lower s <+: lower t := by
  rw [lower_of_forall ht, lower_of_forall fun c hc => ht c (h.subset hc)]
  exact h.map _

end GenScope.Text
