import GenScope.Cpp.Parameter
import GenScope.Proofs.Text.CharClass
import GenScope.Proofs.Text.Join

/-!
# Parameter lists, written and read

Declarations without a comma outside brackets are read back from the list that joins them
(`splitParameters_join`, `parameters_join`), and a parameter that the generator writes by value, by
reference or by constant reference is read back from its declaration (`parseParameter_text`).
-/

namespace GenScope.Cpp

open Text (isBlank isWordChar)

/-! ### Depth of nesting -/

/-- The brackets that a text opens and does not close. -/
def depth (s : Text) : Int := (s.map nesting).sum

@[simp] theorem depth_nil : depth [] = 0 := rfl

@[simp] theorem depth_cons (c : Char) (s : Text) : depth (c :: s) = nesting c + depth s := by
  simp [depth]

@[simp] theorem depth_append (s t : Text) : depth (s ++ t) = depth s + depth t := by
  simp [depth]

theorem depth_eq_zero_of_forall {s : Text} (h : ∀ c ∈ s, nesting c = 0) : depth s = 0 := by
  induction s with
  | nil => rfl
  | cons c s ih => rw [depth_cons, h c (by simp), ih fun d hd => h d (by simp [hd])]; rfl

/-- The text closes every bracket that it opens, and none that it has not opened. -/
structure IsBalanced (s : Text) : Prop where
  depth_eq : depth s = 0
  depth_nonneg : ∀ p, p <+: s → 0 ≤ depth p

/-- No comma stands outside the brackets. -/
def NoOuterComma (s : Text) : Prop := ∀ p q, s = p ++ ',' :: q → depth p ≠ 0

theorem IsBalanced.depth_pos {s p q : Text} (hb : IsBalanced s) (hc : NoOuterComma s)
    (h : s = p ++ ',' :: q) : 0 < depth p :=
  lt_of_le_of_ne (hb.depth_nonneg p ⟨',' :: q, h.symm⟩) (Ne.symm (hc p q h))

theorem IsBalanced.append {s t : Text} (hs : IsBalanced s) (ht : ∀ c ∈ t, nesting c = 0) :
    IsBalanced (s ++ t) where
  depth_eq := by rw [depth_append, hs.depth_eq, depth_eq_zero_of_forall ht]; rfl
  depth_nonneg p hp := by
    obtain ⟨q, hq⟩ := hp
    rcases List.append_eq_append_iff.1 hq with ⟨w, rfl, -⟩ | ⟨w, rfl, rfl⟩
    · exact hs.depth_nonneg p (List.prefix_append ..)
    · rw [depth_append, hs.depth_eq, depth_eq_zero_of_forall fun c hc => ht c (by simp [hc])]; rfl

theorem NoOuterComma.append {s t : Text} (hs : NoOuterComma s) (ht : ',' ∉ t) :
    NoOuterComma (s ++ t) := by
  intro p q h
  rcases List.append_eq_append_iff.1 h with ⟨w, -, rfl⟩ | ⟨w, rfl, hw⟩
  · simp at ht
  · cases w with
    | nil =>
      obtain rfl : t = ',' :: q := by simpa using hw.symm
      simp at ht
    | cons c w =>
      obtain ⟨rfl, -⟩ := List.cons.inj hw
      exact hs p w rfl

theorem IsBalanced.cons {s : Text} {c : Char} (hs : IsBalanced s) (hc : nesting c = 0) :
    IsBalanced (c :: s) where
  depth_eq := by rw [depth_cons, hc, hs.depth_eq]; rfl
  depth_nonneg p hp := by
    rcases List.prefix_cons_iff.1 hp with rfl | ⟨q, rfl, hq⟩
    · rfl
    · rw [depth_cons, hc, zero_add]; exact hs.depth_nonneg q hq

theorem NoOuterComma.cons {s : Text} {c : Char} (hs : NoOuterComma s) (hc : nesting c = 0)
    (hne : c ≠ ',') : NoOuterComma (c :: s) := by
  intro p q h
  cases p with
  | nil => exact absurd (List.cons.inj h).1 hne
  | cons d p =>
    obtain ⟨rfl, hs'⟩ := List.cons.inj h
    rw [depth_cons, hc, zero_add]; exact hs p q hs'

theorem isBalanced_iff {s : Text} :
    IsBalanced s ↔ depth s = 0 ∧ ∀ p ∈ s.inits, 0 ≤ depth p := by
  simp only [List.mem_inits]
  exact ⟨fun h => ⟨h.depth_eq, h.depth_nonneg⟩, fun h => ⟨h.1, h.2⟩⟩

instance (s : Text) : Decidable (IsBalanced s) := decidable_of_iff _ isBalanced_iff.symm

theorem noOuterComma_iff {s : Text} :
    NoOuterComma s ↔ ∀ n < s.length, s[n]? = some ',' → depth (s.take n) ≠ 0 := by
  constructor
  · intro h n hn hc
    refine h (s.take n) (s.drop (n + 1)) ?_
    obtain ⟨hlt, hget⟩ := List.getElem?_eq_some_iff.1 hc
    rw [← hget, List.getElem_cons_drop, List.take_append_drop]
  · rintro h p q rfl
    simpa using h p.length (by simp) (by simp)

instance (s : Text) : Decidable (NoOuterComma s) := decidable_of_iff _ noOuterComma_iff.symm

/-! ### Cutting at the outer commas -/

theorem topLevelPieces_append {n : Int} {s t p : Text} {ps : List Text}
    (h : ∀ u v, s = u ++ ',' :: v → 0 < n + depth u)
    (ht : topLevelPieces (n + depth s) t = p :: ps) : topLevelPieces n (s ++ t) = (s ++ p) :: ps := by
  induction s generalizing n with
  | nil => simpa using ht
  | cons c s ih =>
    have hc : ¬ (c = ',' ∧ n ≤ 0) := by
      rintro ⟨rfl, hn⟩
      have := h [] s rfl
      simp at this; omega
    have hrest : topLevelPieces (n + nesting c) (s ++ t) = (s ++ p) :: ps := by
      refine ih (fun u v huv => ?_) (by rwa [add_assoc, ← depth_cons])
      have := h (c :: u) v (by simp [huv])
      rw [depth_cons] at this; omega
    rw [List.cons_append, topLevelPieces, if_neg hc, hrest]
    rfl

theorem topLevelPieces_join {ds : List Text} (hne : ds ≠ [])
    (h : ∀ d ∈ ds, IsBalanced d ∧ NoOuterComma d) : topLevelPieces 0 (Text.join "," ds) = ds := by
  induction ds with
  | nil => exact absurd rfl hne
  | cons d ds ih =>
    obtain ⟨hb, hc⟩ := h d (by simp)
    have hd : ∀ u v, d = u ++ ',' :: v → 0 < (0 : Int) + depth u := fun u v huv => by
      simpa using hb.depth_pos hc huv
    cases ds with
    | nil =>
      have := topLevelPieces_append (t := []) (p := []) hd rfl
      simpa using this
    | cons e ds =>
      have ih := ih (by simp) fun d hd => h d (by simp [hd])
      have hpieces : topLevelPieces (0 + depth d) (',' :: Text.join "," (e :: ds)) = [] :: e :: ds := by
        rw [hb.depth_eq, topLevelPieces, if_pos (by simp)]
        simpa using ih
      have := topLevelPieces_append hd hpieces
      rw [Text.join_cons_cons]
      simpa using this

theorem splitParameters_join {ds : List Text} (h : ∀ d ∈ ds, IsBalanced d ∧ NoOuterComma d)
    (hne : ∀ d ∈ ds, Text.trim d ≠ []) :
    splitParameters (Text.join "," ds) = ds.map Text.trim := by
  unfold splitParameters
  by_cases hds : ds = []
  · subst hds; rfl
  · have hlast : (ds.map Text.trim).getLast? ≠ some [] := by
      rw [List.getLast?_map]
      intro hl
      obtain ⟨d, hd, ht⟩ := Option.map_eq_some_iff.1 hl
      exact hne d (List.mem_of_getLast? hd) ht
    rw [topLevelPieces_join hds h]
    exact if_neg hlast

theorem parseParameter_trim (d : Text) : parseParameter (Text.trim d) = parseParameter d := by
  simp only [parseParameter, Text.trim_trim]

theorem parameters_join {ds : List Text} (h : ∀ d ∈ ds, IsBalanced d ∧ NoOuterComma d)
    (hne : ∀ d ∈ ds, Text.trim d ≠ []) :
    parameters (Text.join "," ds) = (ds.map parseParameter).filter (·.name != receiverName) := by
  rw [parameters, splitParameters_join h hne, List.map_map]
  simp only [Function.comp_def, parseParameter_trim]

theorem join_comma_space (d : Text) (ds : List Text) :
    Text.join ", " (d :: ds) = Text.join "," (d :: ds.map (' ' :: ·)) := by
  induction ds generalizing d with
  | nil => rfl
  | cons e ds ih =>
    have hspace : Text.join "," ((' ' :: e) :: ds.map (' ' :: ·)) =
        ' ' :: Text.join "," (e :: ds.map (' ' :: ·)) := by
      cases ds <;> simp [Text.join_cons_cons]
    rw [Text.join_cons_cons, ih e, List.map_cons, Text.join_cons_cons, hspace]
    simp

/-! ### Parameters as the generator writes them -/

inductive Passing
  | byValue
  | byReference
  | byConstant
deriving DecidableEq, Repr

/-- What is written behind the type. -/
def Passing.qualifier : Passing → Text
  | .byConstant => " const"
  | _ => []

/-- What is written before the mark of a variable. -/
def Passing.sigil : Passing → Text
  | .byValue => []
  | _ => "&"

structure WrittenParameter where
  type : Text
  passing : Passing
  name : Text
deriving DecidableEq, Repr

namespace WrittenParameter

def text (p : WrittenParameter) : Text :=
  p.type ++ p.passing.qualifier ++ " " ++ p.passing.sigil ++ "v$" ++ p.name

def toVariable (p : WrittenParameter) : Variable := ⟨'$' :: p.name, p.type⟩

/-- The type is one the generator writes, and the name is a word. -/
structure WellFormed (p : WrittenParameter) : Prop where
  type_ne : p.type ≠ []
  type_trimmed : Text.trim p.type = p.type
  type_line : '\n' ∉ p.type
  type_brace : '{' ∉ p.type
  type_balanced : IsBalanced p.type
  type_comma : NoOuterComma p.type
  type_const : ¬ (" const" : Text) <:+ p.type
  name_ne : p.name ≠ []
  name_word : ∀ c ∈ p.name, isWordChar c = true

variable {p : WrittenParameter}

/-- What the declaration holds besides the type. -/
def ending (p : WrittenParameter) : Text := p.passing.qualifier ++ " " ++ p.passing.sigil ++ "v$" ++ p.name

theorem text_eq (p : WrittenParameter) : p.text = p.type ++ p.ending := by simp [text, ending]

theorem WellFormed.not_mem_ending (h : p.WellFormed) {c : Char} (hw : isWordChar c = false)
    (hc : c ∉ (" const &v$" : Text)) : c ∉ p.ending := by
  have hname : c ∉ p.name := fun hm => by simp [h.name_word c hm] at hw
  have hmark : ∀ s : Text, s <:+: (" const &v$" : Text) → c ∉ s := fun s hs hm => hc (hs.subset hm)
  cases hp : p.passing <;> simp only [ending, Passing.qualifier, Passing.sigil, hp]
  all_goals
    simp only [List.mem_append, not_or]
    exact ⟨⟨⟨⟨hmark _ (by decide), hmark _ (by decide)⟩, hmark _ (by decide)⟩, hmark _ (by decide)⟩, hname⟩

theorem WellFormed.nesting_ending (h : p.WellFormed) : ∀ c ∈ p.ending, nesting c = 0 := by
  intro c hc
  by_contra hn
  have hb : c = '(' ∨ c = '<' ∨ c = ')' ∨ c = '>' := by
    unfold nesting at hn
    by_cases h1 : c = '(' ∨ c = '<'
    · tauto
    · by_cases h2 : c = ')' ∨ c = '>'
      · tauto
      · simp [h1, h2] at hn
  rcases hb with rfl | rfl | rfl | rfl <;> exact h.not_mem_ending (by decide) (by decide) hc

theorem WellFormed.isBalanced_text (h : p.WellFormed) : IsBalanced p.text := by
  rw [text_eq]; exact h.type_balanced.append h.nesting_ending

theorem WellFormed.noOuterComma_text (h : p.WellFormed) : NoOuterComma p.text := by
  rw [text_eq]; exact h.type_comma.append (h.not_mem_ending (by decide) (by decide))

theorem WellFormed.not_mem_text (h : p.WellFormed) {c : Char} (hw : isWordChar c = false)
    (hc : c ∉ (" const &v$" : Text)) (ht : c ∉ p.type) : c ∉ p.text := by
  rw [text_eq, List.mem_append, not_or]; exact ⟨ht, h.not_mem_ending hw hc⟩

theorem WellFormed.trim_text (h : p.WellFormed) : Text.trim p.text = p.text := by
  obtain ⟨hhead, -⟩ := Text.trim_eq_self_iff.1 h.type_trimmed
  refine Text.trim_eq_self_iff.2 ⟨fun c hc => hhead c ?_, fun c hc => ?_⟩
  · obtain ⟨d, s, hs⟩ := List.exists_cons_of_ne_nil h.type_ne
    simpa [text, hs] using hc
  · rw [text, List.getLast?_append_of_ne_nil _ h.name_ne] at hc
    exact Text.isBlank_of_isWordChar (h.name_word c (List.mem_of_getLast? hc))

theorem WellFormed.parseParameter_text (h : p.WellFormed) : parseParameter p.text = p.toVariable := by
  have hname : ' ' ∉ p.passing.sigil ++ "v$" ++ p.name := by
    have : ' ' ∉ p.name := fun hm => absurd (h.name_word _ hm) (by decide)
    cases p.passing <;> simpa [Passing.sigil] using this
  have hsplit : Text.splitLast? ' ' p.text =
      some (p.type ++ p.passing.qualifier, p.passing.sigil ++ "v$" ++ p.name) := by
    rw [← Text.splitLast?_append_cons _ hname]; simp [text]
  have hdrop : (p.passing.sigil ++ "v$" ++ p.name).dropWhile (fun c => c == '&' || c == 'v') =
      '$' :: p.name := by
    cases p.passing <;> rfl
  have htrim : Text.trim (p.type ++ p.passing.qualifier) = p.type ++ p.passing.qualifier := by
    obtain ⟨hhead, hlast⟩ := Text.trim_eq_self_iff.1 h.type_trimmed
    refine Text.trim_eq_self_iff.2 ⟨fun c hc => hhead c ?_, fun c hc => ?_⟩
    · obtain ⟨d, s, hs⟩ := List.exists_cons_of_ne_nil h.type_ne
      simpa [hs] using hc
    · cases hp : p.passing
      case byConstant =>
        obtain rfl : c = 't' := by simpa [hp, Passing.qualifier, eq_comm] using hc
        decide
      all_goals exact hlast c (by simpa [hp, Passing.qualifier] using hc)
  simp only [parseParameter, h.trim_text, hsplit, Option.getD_some, htrim, hdrop, toVariable]
  congr 1
  cases hp : p.passing
  case byConstant =>
    have he : Text.endsWith (p.type ++ (" const" : Text)) " const" = true :=
      Text.endsWith_iff.2 (List.suffix_append ..)
    rw [Passing.qualifier, if_pos he]
    simp
  all_goals
    simp only [Passing.qualifier, List.append_nil]
    exact if_neg fun he => h.type_const (Text.endsWith_iff.1 he)

/-- The parameters that the generator writes into a list are read back, without the receiver. -/
theorem parameters_join_text {ps : List WrittenParameter} (h : ∀ p ∈ ps, p.WellFormed) :
    parameters (Text.join ", " (ps.map text)) =
      (ps.map toVariable).filter (·.name != receiverName) := by
  cases ps with
  | nil => rfl
  | cons p ps =>
    have hp := h p (by simp)
    have hps : ∀ q ∈ ps, q.WellFormed := fun q hq => h q (by simp [hq])
    have hspace : ∀ q : WrittenParameter, Text.trim (' ' :: q.text) = Text.trim q.text :=
      fun q => Text.trim_cons_blank (by decide) _
    have hne : ∀ q : WrittenParameter, q.WellFormed → Text.trim q.text ≠ [] := fun q hq => by
      rw [hq.trim_text]; simp [text]
    rw [List.map_cons, join_comma_space, List.map_map]
    rw [parameters_join]
    · have hread : ∀ q ∈ ps, parseParameter (' ' :: q.text) = q.toVariable := fun q hq => by
        rw [← parseParameter_trim, hspace, parseParameter_trim, (hps q hq).parseParameter_text]
      rw [List.map_cons, List.map_map, hp.parseParameter_text, List.map_cons]
      congr 2
      exact List.map_congr_left hread
    · intro d hd
      rcases List.mem_cons.1 hd with rfl | hd
      · exact ⟨hp.isBalanced_text, hp.noOuterComma_text⟩
      · obtain ⟨q, hq, rfl⟩ := List.mem_map.1 hd
        exact ⟨(hps q hq).isBalanced_text.cons (by decide),
          (hps q hq).noOuterComma_text.cons (by decide) (by decide)⟩
    · intro d hd
      rcases List.mem_cons.1 hd with rfl | hd
      · exact hne p hp
      · obtain ⟨q, hq, rfl⟩ := List.mem_map.1 hd
        exact (hspace q).symm ▸ hne q (hps q hq)

end WrittenParameter

end GenScope.Cpp
