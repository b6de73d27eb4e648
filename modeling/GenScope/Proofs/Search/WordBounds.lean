import GenScope.Proofs.Search.Offered
import GenScope.Proofs.Text.Lowercase

/-!
# The letters and digits that bound a word

A word of a query is found where no letter and no digit of ASCII stands next to it (`continuesWord_iff`).
Next to a letter or digit beyond ASCII it is found as well, though it is then part of a longer word. A word
that stands apart from all letters and digits is always found, and what else is found is exactly the words
that are glued to letters and digits beyond ASCII wherever they stand (`standsApart_iff_matchesTokens`).
-/

namespace GenScope

/-! ### Where a word stands -/

/-- The characters next to what is between two texts. -/
def neighbours (before after : Text) : List Char := before.getLast?.toList ++ after.head?.toList

/-- The word stands in the text where no character of the class is next to it. -/
def StandsApart (inner : Char → Bool) (text word : Text) : Prop :=
  ∃ before after, text = before ++ word ++ after ∧ ∀ c ∈ neighbours before after, inner c = false

variable {inner inner' : Char → Bool} {before after text word : Text} {c : Char}

theorem standsApart_iff_place : StandsApart inner text word ↔ ∃ n ≤ text.length, word <+: text.drop n ∧
    (neighbours (text.take n) (text.drop (n + word.length))).all (!inner ·) = true := by
  simp only [List.all_eq_true, Bool.not_eq_true']
  constructor
  · rintro ⟨before, after, rfl, hapart⟩
    refine ⟨before.length, by simp, by simp, ?_⟩
    have hafter : (before ++ word ++ after).drop (before.length + word.length) = after := by
      rw [← List.length_append, List.drop_left]
    rwa [hafter, List.append_assoc, List.take_left]
  · rintro ⟨n, -, ⟨after, hafter⟩, hapart⟩
    refine ⟨text.take n, after, by rw [List.append_assoc, hafter, List.take_append_drop], ?_⟩
    rwa [← List.drop_drop, ← hafter, List.drop_left] at hapart

instance (inner : Char → Bool) (text word : Text) : Decidable (StandsApart inner text word) :=
  decidable_of_iff' _ standsApart_iff_place

theorem mem_of_mem_neighbours (h : c ∈ neighbours before after) : c ∈ before ++ word ++ after := by
  rcases List.mem_append.1 h with h | h
  · have hbefore : c ∈ before := List.mem_of_getLast? (Option.mem_toList.1 h)
    simp [hbefore]
  · have hafter : c ∈ after := List.mem_of_head? (Option.mem_toList.1 h)
    simp [hafter]

theorem StandsApart.congr (h : ∀ c ∈ text, inner c = inner' c) :
    StandsApart inner text word ↔ StandsApart inner' text word := by
  refine exists_congr fun before => exists_congr fun after => and_congr_right ?_
  rintro rfl
  refine forall_congr' fun c => forall_congr' fun hc => ?_
  rw [h c (mem_of_mem_neighbours hc)]

theorem StandsApart.mono (h : ∀ c ∈ text, inner' c = true → inner c = true)
    (hword : StandsApart inner text word) : StandsApart inner' text word := by
  obtain ⟨before, after, rfl, hapart⟩ := hword
  refine ⟨before, after, rfl, fun c hc => Bool.eq_false_iff.2 fun hinner => ?_⟩
  exact Bool.eq_false_iff.1 (hapart c hc) (h c (mem_of_mem_neighbours hc) hinner)

theorem hasWord_iff : HasWord text word ↔ StandsApart continuesWord text word := by
  refine exists_congr fun before => exists_congr fun after => and_congr_right fun _ => ?_
  simp only [neighbours, List.mem_append, Option.mem_toList, or_imp, forall_and]

/-! ### Letters and digits -/

/-- A letter or digit of ASCII. -/
def isAsciiAlphanumeric (c : Char) : Bool := decide (c.toNat < 128) && Text.isAlphanumeric c

theorem continuesWord_lt (h : continuesWord c = true) : c.toNat < 128 := by
  simp only [continuesWord, Bool.or_eq_true, Bool.and_eq_true, decide_eq_true_eq] at h
  rcases h with ⟨-, h⟩ | ⟨-, h⟩
  · exact Nat.lt_of_le_of_lt (show c.toNat ≤ 122 from h) (by decide)
  · exact Nat.lt_of_le_of_lt (show c.toNat ≤ 57 from h) (by decide)

/-- Lower-cased text has no capitals of ASCII, so that its ASCII letters and digits are those that continue a
word. -/
theorem continuesWord_iff (h : c ∈ Text.lower text) : continuesWord c = isAsciiAlphanumeric c := by
  have hsmall : Text.IsSmall c := Text.isSmall_of_mem_lowerAfter h
  by_cases hlt : c.toNat < 128
  · exact Text.forall_ascii (p := fun c => Text.IsSmall c → continuesWord c = isAsciiAlphanumeric c)
      (by decide +kernel) hlt hsmall
  · rw [isAsciiAlphanumeric, decide_eq_false hlt, Bool.false_and, Bool.eq_false_iff]
    exact fun hc => hlt (continuesWord_lt hc)

/-- Wherever the word stands in the text, unless a letter or digit of ASCII is next to it, one beyond ASCII
is. -/
def GluedBeyondAscii (text word : Text) : Prop :=
  ∀ before after, text = before ++ word ++ after →
    (∀ c ∈ neighbours before after, isAsciiAlphanumeric c = false) →
    ∃ c ∈ neighbours before after, 128 ≤ c.toNat ∧ Text.isAlphanumeric c = true

theorem standsApart_alphanumeric_iff : StandsApart Text.isAlphanumeric text word ↔
    StandsApart isAsciiAlphanumeric text word ∧ ¬ GluedBeyondAscii text word := by
  have hascii : ∀ c, isAsciiAlphanumeric c = true → Text.isAlphanumeric c = true := fun c h =>
    (Bool.and_eq_true_iff.1 h).2
  constructor
  · intro h
    refine ⟨h.mono fun c _ => hascii c, fun hglued => ?_⟩
    obtain ⟨before, after, htext, hapart⟩ := h
    obtain ⟨c, hc, -, halnum⟩ := hglued before after htext fun c hc =>
      Bool.eq_false_iff.2 fun h => Bool.eq_false_iff.1 (hapart c hc) (hascii c h)
    exact Bool.eq_false_iff.1 (hapart c hc) halnum
  · rintro ⟨-, hglued⟩
    simp only [GluedBeyondAscii, not_forall, not_exists, not_and] at hglued
    obtain ⟨before, after, htext, hapart, hbeyond⟩ := hglued
    refine ⟨before, after, htext, fun c hc => Bool.eq_false_iff.2 fun halnum => ?_⟩
    have hlt : c.toNat < 128 := Nat.not_le.1 fun hle => hbeyond c hc hle halnum
    have hc := hapart c hc
    rw [isAsciiAlphanumeric, decide_eq_true hlt, Bool.true_and, halnum] at hc
    cases hc

/-! ### Words in a path -/

/-- Words are found if and only if they stand apart from the letters and digits of ASCII. They stand apart from
all letters and digits if and only if they are found and none of them is glued to one beyond ASCII, so that
for a path whose letters and digits are those of ASCII this is the same. -/
theorem standsApart_iff_matchesTokens (path : Text) (tokens : List Text) :
    let text := Text.lower path
    (matchesTokens path tokens = true ↔ ∀ w ∈ tokens, StandsApart isAsciiAlphanumeric text w) ∧
    ((∀ w ∈ tokens, StandsApart Text.isAlphanumeric text w) ↔
      matchesTokens path tokens = true ∧ ∀ w ∈ tokens, ¬ GluedBeyondAscii text w) ∧
    ((∀ c ∈ text, Text.isAlphanumeric c = true → c.toNat < 128) →
      (matchesTokens path tokens = true ↔ ∀ w ∈ tokens, StandsApart Text.isAlphanumeric text w)) := by
  intro text
  have hmatches : matchesTokens path tokens = true ↔ ∀ w ∈ tokens, StandsApart isAsciiAlphanumeric text w := by
    rw [matchesTokens_iff]
    refine forall_congr' fun w => forall_congr' fun _ => ?_
    rw [hasWord_iff]
    exact StandsApart.congr fun c hc => continuesWord_iff hc
  refine ⟨hmatches, ?_, fun hascii => ?_⟩
  · rw [hmatches, ← forall₂_and]
    exact forall_congr' fun w => forall_congr' fun _ => standsApart_alphanumeric_iff
  · rw [hmatches]
    refine forall_congr' fun w => forall_congr' fun _ => StandsApart.congr fun c hc => ?_
    rw [Bool.eq_iff_iff, isAsciiAlphanumeric, Bool.and_eq_true, decide_eq_true_eq]
    exact and_iff_right_of_imp (hascii c hc)

/-- A letter with an accent does not part a word from what is before it. -/
theorem glued_word_found :
    let path : Text := "épost.cpp"
    let tokens : List Text := ["post"]
    (∀ w ∈ tokens, w ≠ [] ∧ Text.lower w = w) ∧ matchesTokens path tokens = true ∧
      ¬ ∀ w ∈ tokens, StandsApart Text.isAlphanumeric (Text.lower path) w := by
  decide +kernel

end GenScope
