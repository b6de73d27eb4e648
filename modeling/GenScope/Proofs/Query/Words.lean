import GenScope.Proofs.Query.QualifiedName
import GenScope.Proofs.Text.Lowercase

/-!
# Words of a query

The words of a query are in lower case and not empty (`mem_tokens`), and the one that seeds a scan is
the first of the longest ones (`longest_eq_some_iff`). A qualified name that is typed without its
backslash has its segments and its method as words (`OfWords.tokens_ofText`); empty parentheses
behind it change neither the words nor the file it stands for.
-/

namespace GenScope

namespace Text

/-! ### Runs -/

theorem mem_of_mem_split {sep : Char → Bool} {s w : Text} (hw : w ∈ split sep s) : ∀ c ∈ w, c ∈ s := by
  induction s generalizing w with
  | nil =>
    obtain rfl : w = [] := by simpa [split] using hw
    simp
  | cons d s ih =>
    rw [split] at hw
    split at hw
    · rcases List.mem_cons.1 hw with rfl | hw
      · simp
      · exact fun c hc => List.mem_cons_of_mem d (ih hw c hc)
    · split at hw
      · rename_i hs; exact absurd hs (split_ne_nil _ _)
      · rename_i v vs hs
        rcases List.mem_cons.1 hw with rfl | hw
        · intro c hc
          rcases List.mem_cons.1 hc with rfl | hc
          · simp
          · exact List.mem_cons_of_mem d (ih (by rw [hs]; simp) c hc)
        · exact fun c hc => List.mem_cons_of_mem d (ih (by rw [hs]; simp [hw]) c hc)

theorem mem_runs {sep : Char → Bool} {s w : Text} (hw : w ∈ runs sep s) :
    w ≠ [] ∧ ∀ c ∈ w, c ∈ s ∧ sep c = false := by
  obtain ⟨hw, hne⟩ := List.mem_filter.1 hw
  exact ⟨by simpa using hne, fun c hc => ⟨mem_of_mem_split hw c hc, not_sep_of_mem_split hw c hc⟩⟩

theorem runs_append_cons {sep : Char → Bool} {c : Char} (hc : sep c = true) (u v : Text) :
    runs sep (u ++ c :: v) = runs sep u ++ runs sep v := by
  rw [runs, split_append_cons hc, List.filter_append]
  rfl

theorem runs_of_forall {sep : Char → Bool} {w : Text} (hne : w ≠ []) (h : ∀ c ∈ w, sep c = false) :
    runs sep w = [w] := by
  rw [runs, split_of_forall h]
  simp [hne]

theorem runs_join {sep : Char → Bool} {c : Char} (hc : sep c = true) {ds : List Text}
    (h : ∀ d ∈ ds, d ≠ [] ∧ ∀ c ∈ d, sep c = false) : runs sep (join [c] ds) = ds := by
  induction ds with
  | nil => rfl
  | cons d ds ih =>
    obtain ⟨hne, hd⟩ := h d (by simp)
    cases ds with
    | nil => rw [join_singleton, runs_of_forall hne hd]
    | cons e ds =>
      rw [join_cons_cons, List.append_assoc, List.singleton_append, runs_append_cons hc,
        runs_of_forall hne hd, ih fun f hf => h f (by simp [hf])]
      rfl

end Text

namespace SearchQuery

variable {q : SearchQuery} {w : Text} {ws : List Text}

/-! ### The seed of a scan -/

/-- The word is the first of the longest ones. -/
def IsFirstLongest (w : Text) (ws : List Text) : Prop :=
  ∃ before after, ws = before ++ w :: after ∧ (∀ v ∈ before, v.length < w.length) ∧
    ∀ v ∈ after, v.length ≤ w.length

theorem IsFirstLongest.length_le (h : IsFirstLongest w ws) : ∀ v ∈ ws, v.length ≤ w.length := by
  obtain ⟨before, after, rfl, hbefore, hafter⟩ := h
  intro v hv
  rcases List.mem_append.1 hv with hv | hv
  · exact Nat.le_of_lt (hbefore v hv)
  · rcases List.mem_cons.1 hv with rfl | hv
    · exact Nat.le_refl _
    · exact hafter v hv

theorem IsFirstLongest.mem (h : IsFirstLongest w ws) : w ∈ ws := by
  obtain ⟨before, after, rfl, -, -⟩ := h
  simp

theorem IsFirstLongest.unique {v : Text} (hw : IsFirstLongest w ws) (hv : IsFirstLongest v ws) : w = v := by
  obtain ⟨before, after, rfl, hbefore, hafter⟩ := hw
  obtain ⟨before', after', heq, hbefore', hafter'⟩ := hv
  rcases List.append_eq_append_iff.1 heq with ⟨u, rfl, hu⟩ | ⟨u, rfl, hu⟩
  · cases u with
    | nil => exact (List.cons.inj hu).1
    | cons x u =>
      obtain ⟨rfl, rfl⟩ := List.cons.inj hu
      have hlt := hbefore' w (by simp)
      have hle := hafter v (by simp)
      omega
  · cases u with
    | nil => exact (List.cons.inj hu).1.symm
    | cons x u =>
      obtain ⟨rfl, rfl⟩ := List.cons.inj hu
      have hlt := hbefore v (by simp)
      have hle := hafter' w (by simp)
      omega

theorem IsFirstLongest.exists_iff (h : IsFirstLongest w ws) {p : Text → Prop} :
    (∃ v, IsFirstLongest v ws ∧ p v) ↔ p w := by
  constructor
  · rintro ⟨v, hv, hp⟩
    rwa [h.unique hv]
  · exact fun hp => ⟨w, h, hp⟩

theorem IsFirstLongest.cons_of_lt (h : IsFirstLongest w ws) {v : Text} (hlt : v.length < w.length) :
    IsFirstLongest w (v :: ws) := by
  obtain ⟨before, after, rfl, hbefore, hafter⟩ := h
  refine ⟨v :: before, after, rfl, fun u hu => ?_, hafter⟩
  rcases List.mem_cons.1 hu with rfl | hu
  · exact hlt
  · exact hbefore u hu

/-- A word that is no longer than the one in front of it does not count. -/
theorem IsFirstLongest.insert {b v : Text} (h : IsFirstLongest w (b :: ws)) (hle : v.length ≤ b.length) :
    IsFirstLongest w (b :: v :: ws) := by
  obtain ⟨before, after, heq, hbefore, hafter⟩ := h
  cases before with
  | nil =>
    obtain ⟨rfl, rfl⟩ := List.cons.inj heq
    refine ⟨[], v :: ws, rfl, by simp, fun u hu => ?_⟩
    rcases List.mem_cons.1 hu with rfl | hu
    · exact hle
    · exact hafter u hu
  | cons c before =>
    obtain ⟨rfl, rfl⟩ := List.cons.inj heq
    have hb := hbefore b (by simp)
    refine ⟨b :: v :: before, after, rfl, fun u hu => ?_, hafter⟩
    rcases List.mem_cons.1 hu with rfl | hu
    · exact hb
    · rcases List.mem_cons.1 hu with rfl | hu
      · exact Nat.lt_of_le_of_lt hle hb
      · exact hbefore u (by simp [hu])

theorem isFirstLongest_foldl (b : Text) (ws : List Text) : IsFirstLongest
    (ws.foldl (fun best w => if best.length < w.length then w else best) b) (b :: ws) := by
  induction ws generalizing b with
  | nil => exact ⟨[], [], rfl, by simp, by simp⟩
  | cons v ws ih =>
    rw [List.foldl_cons]
    split
    · rename_i hlt
      exact (ih v).cons_of_lt (Nat.lt_of_lt_of_le hlt ((ih v).length_le v (by simp)))
    · rename_i hlt
      exact (ih b).insert (Nat.le_of_not_lt hlt)

theorem longest_eq_some_iff : longest ws = some w ↔ IsFirstLongest w ws := by
  cases ws with
  | nil => exact iff_of_false (by simp [longest]) fun h => by simpa using h.mem
  | cons v ws =>
    rw [longest, Option.some.injEq]
    exact ⟨fun h => h ▸ isFirstLongest_foldl v ws, (isFirstLongest_foldl v ws).unique⟩

theorem exists_isFirstLongest (h : ws ≠ []) : ∃ w, IsFirstLongest w ws := by
  obtain ⟨v, ws, rfl⟩ := List.exists_cons_of_ne_nil h
  exact ⟨_, isFirstLongest_foldl v ws⟩

/-! ### Words -/

theorem mem_tokens (h : w ∈ q.tokens) : w ≠ [] ∧ Text.lower w = w := by
  obtain ⟨hne, hchars⟩ := Text.mem_runs h
  exact ⟨hne, Text.lower_of_mem_lower fun c hc => Text.mem_of_mem_trim (hchars c hc).1⟩

end SearchQuery

/-! ### Words of a qualified name -/

namespace QualifiedName

variable {n : QualifiedName} {call : Text}

/-- The segments and the method. -/
def parts (n : QualifiedName) : List Text := n.segments ++ n.method.toList

theorem OfWords.part (h : n.OfWords) : ∀ p ∈ n.parts, p ≠ [] ∧ ∀ c ∈ p, isNameChar c = true := by
  intro p hp
  rcases List.mem_append.1 hp with hp | hp
  · exact h.segment p hp
  · exact h.method p (Option.mem_toList.1 hp)

theorem not_isQuerySeparator {c : Char} (h : isNameChar c = true) : isQuerySeparator c = false :=
  Text.forall_ascii (p := fun c => isNameChar c = true → isQuerySeparator c = false) (by decide)
    (toNat_lt_of_isNameChar h) h

theorem OfWords.runs_text (h : n.OfWords) (hcall : call = [] ∨ call = "()") :
    Text.runs isQuerySeparator (n.text ++ call) = n.parts := by
  have hpart : ∀ p ∈ n.parts, p ≠ [] ∧ ∀ c ∈ p, isQuerySeparator c = false := fun p hp =>
    ⟨(h.part p hp).1, fun c hc => not_isQuerySeparator ((h.part p hp).2 c hc)⟩
  have htext : Text.runs isQuerySeparator n.text = n.parts := by
    have hsegments : Text.runs isQuerySeparator (Text.join ['\\'] n.segments) = n.segments :=
      Text.runs_join (by decide) fun d hd => hpart d (by simp [parts, hd])
    unfold text written parts
    cases hm : n.method with
    | none => simpa using hsegments
    | some m =>
      obtain ⟨hne, hchars⟩ := hpart m (by simp [parts, hm])
      show Text.runs isQuerySeparator (_ ++ ':' :: ([] ++ ':' :: m)) = _
      rw [Text.runs_append_cons (by decide), Text.runs_append_cons (by decide), hsegments,
        Text.runs_of_forall hne hchars]
      rfl
  rcases hcall with rfl | rfl
  · rw [List.append_nil, htext]
  · show Text.runs isQuerySeparator (_ ++ '(' :: ([] ++ ')' :: [])) = _
    rw [Text.runs_append_cons (by decide), Text.runs_append_cons (by decide), htext]
    simp [Text.runs, Text.split]

theorem OfWords.isBlank_call (h : n.OfWords) (hcall : call = [] ∨ call = "()") :
    ∀ c ∈ n.text ++ call, Text.isBlank c = false := by
  intro c hc
  rcases List.mem_append.1 hc with hc | hc
  · exact h.isBlank_text c hc
  · rcases hcall with rfl | rfl
    · simp at hc
    · have hall : ∀ c ∈ ("()" : Text), Text.isBlank c = false := by simp; decide
      exact hall c hc

theorem OfWords.trim_call (h : n.OfWords) (hcall : call = [] ∨ call = "()") :
    Text.trim (n.text ++ call) = n.text ++ call :=
  Text.trim_of_forall (h.isBlank_call hcall)

theorem OfWords.lower_text_append (h : n.OfWords) (hcall : call = [] ∨ call = "()") :
    Text.lower (n.text ++ call) = n.lower.text ++ call := by
  have hascii : ∀ c ∈ n.text ++ call, c.toNat < 128 := by
    intro c hc
    rcases List.mem_append.1 hc with hc | hc
    · exact h.forall_written (p := fun c => c.toNat < 128) (by decide) (by simp)
        (fun c hc => toNat_lt_of_isNameChar hc) c hc
    · rcases hcall with rfl | rfl
      · simp at hc
      · have hall : ∀ c ∈ ("()" : Text), c.toNat < 128 := by simp
        exact hall c hc
  have hsame : call.map Char.toLower = call := by rcases hcall with rfl | rfl <;> rfl
  rw [Text.lower_of_forall hascii, List.map_append, hsame]
  exact congrArg (· ++ call) (map_toLower_written (by decide) (by decide))

/-- The words of a qualified name without its backslash. -/
theorem OfWords.tokens_ofText (h : n.OfWords) (hcall : call = [] ∨ call = "()") :
    (SearchQuery.ofText (n.text ++ call)).tokens = n.lower.parts := by
  have htrim : Text.trim (n.lower.text ++ call) = n.lower.text ++ call := h.lower.trim_call hcall
  show Text.runs isQuerySeparator (Text.trim (Text.lower (Text.trim (n.text ++ call)))) = _
  rw [h.trim_call hcall, h.lower_text_append hcall, htrim, h.lower.runs_text hcall]

theorem OfWords.path?_ofText (h : n.OfWords) (hcall : call = [] ∨ call = "()") :
    (SearchQuery.ofText (n.text ++ call)).path? = none := by
  obtain ⟨c, s, hs, hc⟩ := h.written_eq_cons '\\' "::"
  have hnot : (⟨n.text ++ call⟩ : SearchQuery).isFullyQualified = false := by
    rw [Bool.eq_false_iff]
    intro hp
    have hp := Text.startsWith_iff.1 hp
    rw [text, hs] at hp
    obtain rfl : '\\' = c := (List.cons_prefix_cons.1 hp).1
    exact absurd hc (by decide)
  rw [SearchQuery.ofText, h.trim_call hcall, SearchQuery.path?, hnot]
  rfl

theorem OfWords.path?_call (h : n.OfWords) (hcall : call = [] ∨ call = "()") :
    (SearchQuery.ofText ('\\' :: (n.text ++ call))).path? = some n.stem := by
  rcases hcall with rfl | rfl
  · rw [List.append_nil]; exact h.path?_query
  · have hblank : ∀ c ∈ '\\' :: (n.text ++ "()"), Text.isBlank c = false := by
      intro c hc
      rcases List.mem_cons.1 hc with rfl | hc
      · decide
      · exact h.isBlank_call (.inr rfl) c hc
    have hqualified : (⟨'\\' :: (n.text ++ "()")⟩ : SearchQuery).isFullyQualified = true :=
      Text.startsWith_iff.2 (List.prefix_append ['\\'] _)
    have hbare : bareName ('\\' :: (n.text ++ "()")) = n.text := h.bareName_affixed (.inr rfl) (.inr rfl)
    rw [SearchQuery.ofText, Text.trim_of_forall hblank, SearchQuery.path?, if_pos hqualified,
      h.generatorPath_eq hbare]

end QualifiedName

end GenScope
