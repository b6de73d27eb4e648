import GenScope.Text.Lowercase

/-!
# Words in a path

A query's words are looked for in a path as whole words: no small Latin letter and no ASCII digit
may stand next to a word. Every place in the path is tried.
-/

namespace GenScope

/-- The character would continue a word. -/
def continuesWord (c : Char) : Bool := ('a' ≤ c && c ≤ 'z') || ('0' ≤ c && c ≤ '9')

/-- The word stands at the start of the text, and what is around it does not continue it. -/
def isWordAt (word : Text) (before : Option Char) (s : Text) : Bool :=
  s.startsWith word && !before.any continuesWord && !(s.drop word.length).head?.any continuesWord

/-- The word stands somewhere in a text that follows the given character. -/
def hasWordAfter (word : Text) : (before : Option Char) → Text → Bool
  | before, [] => isWordAt word before []
  | before, c :: s => isWordAt word before (c :: s) || hasWordAfter word (some c) s

/-- Every word stands in the lower-cased path. -/
def matchesTokens (path : Text) (tokens : List Text) : Bool :=
  let lowered := Text.lower path
  tokens.all fun token => hasWordAfter token none lowered

theorem hasWordAfter_iff (word : Text) (before : Option Char) (s : Text) :
    hasWordAfter word before s = true ↔
      ∃ pre post, s = pre ++ post ∧ isWordAt word (pre.getLast?.or before) post = true := by
  induction s generalizing before with
  | nil =>
    rw [hasWordAfter]
    constructor
    · exact fun h => ⟨[], [], rfl, by simpa using h⟩
    · rintro ⟨pre, post, h, hw⟩
      obtain ⟨rfl, rfl⟩ := List.append_eq_nil_iff.1 h.symm
      simpa using hw
  | cons c s ih =>
    rw [hasWordAfter, Bool.or_eq_true, ih]
    constructor
    · rintro (h | ⟨pre, post, rfl, h⟩)
      · exact ⟨[], c :: s, rfl, by simpa using h⟩
      · refine ⟨c :: pre, post, rfl, ?_⟩
        cases pre with
        | nil => simpa using h
        | cons d ds => simpa [List.getLast?_cons] using h
    · rintro ⟨pre, post, h, hw⟩
      cases pre with
      | nil => left; simp_all
      | cons d ds =>
        obtain ⟨rfl, rfl⟩ := by simpa using h
        right
        refine ⟨ds, post, rfl, ?_⟩
        cases ds with
        | nil => simpa using hw
        | cons e es => simpa [List.getLast?_cons] using hw

end GenScope
