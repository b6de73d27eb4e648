import GenScope.Proofs.Cpp.ParameterList

/-!
# Where a parameter list is cut

A parameter list is cut at its outer commas, those that stand outside all brackets. What lies between
two of them is a declaration, blank or not, and what lies behind the last one is a declaration unless it
is blank (`splitParameters_eq`). So declarations that are written with white space around the commas
are read back (`splitParameters_text`).
-/

namespace GenScope.Cpp

open Text (isBlank)

variable {s : Text} {n : Int}

/-! ### Outer commas -/

/-- No bracket is closed that has not been opened. -/
def ClosesOpenOnly (s : Text) : Prop := ∀ p, p <+: s → 0 ≤ depth p

theorem closesOpenOnly_iff : ClosesOpenOnly s ↔ ∀ p ∈ s.inits, 0 ≤ depth p := by
  simp only [ClosesOpenOnly, List.mem_inits]

instance (s : Text) : Decidable (ClosesOpenOnly s) := decidable_of_iff _ closesOpenOnly_iff.symm

/-- The positions of the commas in front of which every bracket is closed, if `n` brackets are open at
the start. -/
def outerCommas (n : Int) (s : Text) : List Nat :=
  (List.range s.length).filter fun i => s[i]? == some ',' && n + depth (s.take i) == 0

/-- What lies from a position on, cut into the stretches between some later positions. -/
def stretches (s : Text) : (start : Nat) → (cuts : List Nat) → List Text
  | start, [] => [s.drop start]
  | start, cut :: cuts => (s.take cut).drop start :: stretches s (cut + 1) cuts

/-- What lies behind the last outer comma. -/
def lastStretch (s : Text) : Text := s.drop (((outerCommas 0 s).getLast?.map (· + 1)).getD 0)

theorem outerCommas_cons (n : Int) (c : Char) (s : Text) : outerCommas n (c :: s) =
    (if c = ',' ∧ n = 0 then [0] else []) ++ (outerCommas (n + nesting c) s).map (· + 1) := by
  have htail : ((List.range s.length).map (· + 1)).filter
        (fun i => (c :: s)[i]? == some ',' && n + depth ((c :: s).take i) == 0) =
      (outerCommas (n + nesting c) s).map (· + 1) := by
    rw [List.filter_map, outerCommas]
    refine congrArg _ (List.filter_congr fun i _ => ?_)
    simp [add_assoc]
  rw [outerCommas, List.length_cons, List.range_succ_eq_map, List.filter_cons, htail]
  by_cases hc : c = ',' ∧ n = 0
  · simp [hc]
  · rw [if_neg hc, if_neg (by simpa using hc)]
    rfl

/-! ### Stretches -/

theorem length_stretches (s : Text) (start : Nat) (cuts : List Nat) :
    (stretches s start cuts).length = cuts.length + 1 := by
  induction cuts generalizing start with
  | nil => rfl
  | cons cut cuts ih => rw [stretches, List.length_cons, ih, List.length_cons]

theorem getLast?_stretches (s : Text) (start : Nat) (cuts : List Nat) :
    (stretches s start cuts).getLast? = some (s.drop ((cuts.getLast?.map (· + 1)).getD start)) := by
  induction cuts generalizing start with
  | nil => rfl
  | cons cut cuts ih =>
    rw [stretches, List.getLast?_cons, ih]
    cases cuts with
    | nil => rfl
    | cons next cuts => simp [List.getLast?_cons]

theorem stretches_cons_succ (c : Char) (s : Text) (start : Nat) (cuts : List Nat) :
    stretches (c :: s) (start + 1) (cuts.map (· + 1)) = stretches s start cuts := by
  induction cuts generalizing start with
  | nil => rfl
  | cons cut cuts ih =>
    rw [List.map_cons, stretches, stretches, ih]
    rfl

theorem stretches_cons_zero (c : Char) {s : Text} {cuts : List Nat} {p : Text} {ps : List Text}
    (h : stretches s 0 cuts = p :: ps) : stretches (c :: s) 0 (cuts.map (· + 1)) = (c :: p) :: ps := by
  cases cuts with
  | nil =>
    obtain ⟨rfl, rfl⟩ := List.cons.inj h
    rfl
  | cons cut cuts =>
    obtain ⟨rfl, rfl⟩ := List.cons.inj h
    rw [List.map_cons, stretches, stretches_cons_succ]
    rfl

/-- The cuts are at the outer commas. A depth below zero, at which a comma would be a cut too, is not
reached. -/
theorem topLevelPieces_eq_stretches (h : ∀ p, p <+: s → 0 ≤ n + depth p) :
    topLevelPieces n s = stretches s 0 (outerCommas n s) := by
  induction s generalizing n with
  | nil => rfl
  | cons c s ih =>
    have hn : 0 ≤ n := by simpa using h [] List.nil_prefix
    have hs : ∀ p, p <+: s → 0 ≤ n + nesting c + depth p := fun p hp => by
      simpa [add_assoc] using h (c :: p) (List.cons_prefix_cons.2 ⟨rfl, hp⟩)
    have hrest := ih hs
    rw [topLevelPieces, outerCommas_cons]
    by_cases hc : c = ',' ∧ n = 0
    · obtain ⟨rfl, rfl⟩ := hc
      have hcomma : (0 : Int) + nesting ',' = 0 := rfl
      rw [hcomma] at hrest ⊢
      rw [if_pos ⟨rfl, le_rfl⟩, if_pos ⟨rfl, rfl⟩, hrest, List.singleton_append, stretches]
      exact congrArg _ (stretches_cons_succ ..).symm
    · have hc' : ¬(c = ',' ∧ n ≤ 0) := by
        intro hcut
        exact hc ⟨hcut.1, le_antisymm hcut.2 hn⟩
      obtain ⟨p, ps, hps⟩ : ∃ p ps, stretches s 0 (outerCommas (n + nesting c) s) = p :: ps :=
        List.exists_cons_of_length_eq_add_one (length_stretches ..)
      rw [if_neg hc', if_neg hc, List.nil_append, hrest, hps, stretches_cons_zero c hps]

/-! ### Declarations -/

/-- The declarations of a list: the trimmed stretches between the outer commas, and the last stretch
if it is not blank. -/
theorem splitParameters_eq (h : ClosesOpenOnly s) : splitParameters s =
    ((stretches s 0 (outerCommas 0 s)).take
      ((outerCommas 0 s).length + if Text.isAllBlank (lastStretch s) then 0 else 1)).map Text.trim := by
  have hpieces : topLevelPieces 0 s = stretches s 0 (outerCommas 0 s) :=
    topLevelPieces_eq_stretches fun p hp => by simpa using h p hp
  have hlast : ((stretches s 0 (outerCommas 0 s)).map Text.trim).getLast? = some (Text.trim (lastStretch s)) := by
    rw [List.getLast?_map, getLast?_stretches]
    rfl
  have hlen := length_stretches s 0 (outerCommas 0 s)
  unfold splitParameters
  simp only [hpieces, hlast, Option.some.injEq, Text.trim_eq_nil_iff]
  split
  · rw [← List.map_dropLast, List.dropLast_eq_take, hlen]
    rfl
  · rw [List.take_of_length_le hlen.le]

/-- A declaration and the white space that is written around it. -/
structure SpacedDeclaration where
  before : Text
  declaration : Text
  after : Text

namespace SpacedDeclaration

def text (d : SpacedDeclaration) : Text := d.before ++ (d.declaration ++ d.after)

structure WellFormed (d : SpacedDeclaration) : Prop where
  before_blank : ∀ c ∈ d.before, isBlank c = true
  after_blank : ∀ c ∈ d.after, isBlank c = true
  ne_nil : d.declaration ≠ []
  trimmed : Text.trim d.declaration = d.declaration
  balanced : IsBalanced d.declaration
  comma : NoOuterComma d.declaration

variable {d : SpacedDeclaration}

theorem nesting_of_isBlank {c : Char} (h : isBlank c = true) : nesting c = 0 := by
  have hne : ∀ b, isBlank b = false → c ≠ b := by
    rintro b hb rfl
    rw [h] at hb
    cases hb
  simp [nesting, hne '(' rfl, hne '<' rfl, hne ')' rfl, hne '>' rfl]

theorem comma_not_mem_of_isBlank {u : Text} (h : ∀ c ∈ u, isBlank c = true) : ',' ∉ u := fun hm => by
  cases h _ hm

theorem spaced_before {u s : Text} (hu : ∀ c ∈ u, isBlank c = true) (hb : IsBalanced s) (hc : NoOuterComma s) :
    IsBalanced (u ++ s) ∧ NoOuterComma (u ++ s) := by
  induction u with
  | nil => exact ⟨hb, hc⟩
  | cons c u ih =>
    obtain ⟨hbal, hcomma⟩ := ih fun d hd => hu d (by simp [hd])
    have hnest := nesting_of_isBlank (hu c (by simp))
    have hne : c ≠ ',' := fun h => comma_not_mem_of_isBlank hu (by simp [h])
    exact ⟨hbal.cons hnest, hcomma.cons hnest hne⟩

theorem WellFormed.spaced (h : d.WellFormed) : IsBalanced d.text ∧ NoOuterComma d.text :=
  spaced_before h.before_blank (h.balanced.append fun c hc => nesting_of_isBlank (h.after_blank c hc))
    (h.comma.append (comma_not_mem_of_isBlank h.after_blank))

theorem WellFormed.trim_text (h : d.WellFormed) : Text.trim d.text = d.declaration := by
  rw [text, Text.trim_blank_append h.before_blank, Text.trim_append_blank h.after_blank, h.trimmed]

theorem splitParameters_text {ds : List SpacedDeclaration} (h : ∀ d ∈ ds, d.WellFormed) :
    splitParameters (Text.join "," (ds.map text)) = ds.map declaration := by
  rw [splitParameters_join]
  · rw [List.map_map]
    exact List.map_congr_left fun d hd => (h d hd).trim_text
  · intro x hx
    obtain ⟨d, hd, rfl⟩ := List.mem_map.1 hx
    exact (h d hd).spaced
  · intro x hx
    obtain ⟨d, hd, rfl⟩ := List.mem_map.1 hx
    rw [(h d hd).trim_text]
    exact (h d hd).ne_nil

end SpacedDeclaration

/-- Declarations are read back from a list that joins them by commas with white space around. A list
that closes no bracket without opening it has one declaration for each outer comma, and one more if what
lies behind the last one is not blank; each is a trimmed stretch between neighbouring outer commas. -/
theorem splitParameters_between_commas :
    (∀ ds : List SpacedDeclaration, (∀ d ∈ ds, d.WellFormed) →
      splitParameters (Text.join "," (ds.map (·.text))) = ds.map (·.declaration)) ∧
    ∀ s : Text, ClosesOpenOnly s →
      (splitParameters s).length =
        (outerCommas 0 s).length + (if Text.isAllBlank (lastStretch s) then 0 else 1) ∧
      ∀ k < (splitParameters s).length,
        (splitParameters s)[k]? = (stretches s 0 (outerCommas 0 s))[k]?.map Text.trim := by
  refine ⟨fun ds h => SpacedDeclaration.splitParameters_text h, fun s h => ?_⟩
  have hlen : (splitParameters s).length =
      (outerCommas 0 s).length + (if Text.isAllBlank (lastStretch s) then 0 else 1) := by
    rw [splitParameters_eq h, List.length_map, List.length_take, length_stretches]
    split <;> omega
  refine ⟨hlen, fun k hk => ?_⟩
  rw [hlen] at hk
  rw [splitParameters_eq h, List.getElem?_map, List.getElem?_take_of_lt hk]

/-- Brackets of both kinds in brackets, white space of several kinds, an empty stretch and a blank
end. -/
theorem splitParameters_between_commas_nested :
    let ds : List SpacedDeclaration :=
      [⟨"\t", "std::tuple<(int64_t, f<string>), mixed> const &v$a", "\n "⟩, ⟨"", "int64_t v$b", " "⟩]
    let s : Text := "a<(b, c), d>, ,e(f,g) , "
    ((∀ d ∈ ds, d.WellFormed) ∧ splitParameters (Text.join "," (ds.map (·.text))) = ds.map (·.declaration)) ∧
    ClosesOpenOnly s ∧ outerCommas 0 s = [12, 14, 22] ∧ (splitParameters s).length = 3 ∧
      (splitParameters s)[1]? = some [] := by
  intro ds s
  have hds : ∀ d ∈ ds, d.WellFormed := by
    rw [List.forall_mem_cons, List.forall_mem_singleton]
    exact ⟨⟨List.all_eq_true.1 rfl, List.all_eq_true.1 rfl, by simp, by decide +kernel, by decide +kernel, by decide +kernel⟩,
      ⟨List.all_eq_true.1 rfl, List.all_eq_true.1 rfl, by simp, by decide +kernel, by decide +kernel, by decide +kernel⟩⟩
  have hs : ClosesOpenOnly s := by decide +kernel
  have hcommas : outerCommas 0 s = [12, 14, 22] := by decide +kernel
  obtain ⟨hread, hcut⟩ := splitParameters_between_commas
  obtain ⟨hlen, hget⟩ := hcut s hs
  have hthree : (splitParameters s).length = 3 := hlen.trans (by decide +kernel)
  exact ⟨⟨hds, hread ds hds⟩, hs, hcommas, hthree, (hget 1 (by omega)).trans (by decide +kernel)⟩

end GenScope.Cpp
