/-!
# Text

The program works on sequences of characters: file contents, names, paths and what is printed are
all of type `Text`. A length is a number of code points and a position counts code points.

`split` never loses a character (`join_split`), and its stretches hold no separator
(`not_sep_of_mem_split`).
-/

namespace GenScope

/-- A text is its sequence of characters. -/
abbrev Text := List Char

instance : Coe String Text := ⟨String.toList⟩

namespace Text

/-! ### Fragments -/

/-- The text begins with the fragment. -/
def startsWith (s fragment : Text) : Bool := fragment.isPrefixOf s

/-- The text ends with the fragment. -/
def endsWith (s fragment : Text) : Bool := fragment.isSuffixOf s

/-- What follows the fragment at the start of the text. -/
def after? (fragment s : Text) : Option Text :=
  if s.startsWith fragment then some (s.drop fragment.length) else none

/-- The fragment stands somewhere in the text. -/
def occursIn (fragment : Text) : Text → Bool
  | [] => fragment.isEmpty
  | c :: s => startsWith (c :: s) fragment || occursIn fragment s

/-- The first position of the fragment in the text. -/
def position? (fragment : Text) : Text → Option Nat
  | [] => if fragment.isEmpty then some 0 else none
  | c :: s =>
    if startsWith (c :: s) fragment then some 0 else (position? fragment s).map (· + 1)

/-- The characters before a position; a negative position counts from the end. -/
def upTo (s : Text) (position : Int) : Text :=
  if 0 ≤ position then s.take position.toNat else s.take (s.length - position.natAbs)

/-! ### Cutting and joining -/

/-- The stretches between separators: one more than there are separators. -/
def split (sep : Char → Bool) : Text → List Text
  | [] => [[]]
  | c :: s =>
    if sep c then [] :: split sep s
    else match split sep s with
      | [] => [[c]]
      | w :: ws => (c :: w) :: ws

/-- The lines of a text, without the line feeds between them. -/
def lines (s : Text) : List Text := split (· == '\n') s

/-- The maximal runs of characters that are not separators. -/
def runs (sep : Char → Bool) (s : Text) : List Text := (split sep s).filter (!·.isEmpty)

/-- The pieces with a separator between neighbours. -/
def join (sep : Text) (pieces : List Text) : Text := List.intercalate sep pieces

/-- The parts before and after the last occurrence of a character. -/
def splitLast? (c : Char) : Text → Option (Text × Text)
  | [] => none
  | d :: s =>
    match splitLast? c s with
    | some (before, rest) => some (d :: before, rest)
    | none => if d == c then some ([], s) else none

/-- What follows the last line feed. -/
def lastLine (s : Text) : Text :=
  match splitLast? '\n' s with
  | some (_, rest) => rest
  | none => s

theorem split_ne_nil (sep : Char → Bool) (s : Text) : split sep s ≠ [] := by
  cases s with
  | nil => simp [split]
  | cons c s =>
    rw [split]
    split
    · simp
    · split <;> simp

/-- Splitting at one character and joining with it again changes nothing. -/
theorem join_split (c : Char) (s : Text) : join [c] (split (· == c) s) = s := by
  induction s with
  | nil => rfl
  | cons d s ih =>
    rw [split]
    by_cases h : d = c
    · subst h
      have hne := split_ne_nil (· == d) s
      cases hs : split (· == d) s with
      | nil => exact absurd hs hne
      | cons w ws => rw [hs] at ih; simpa [join, List.intercalate, List.intersperse] using ih
    · cases hs : split (· == c) s with
      | nil => exact absurd hs (split_ne_nil _ _)
      | cons w ws =>
        rw [hs] at ih
        cases ws with
        | nil => simp [h, join, List.intercalate, List.intersperse] at ih ⊢; exact ih
        | cons v vs => simp [h, join, List.intercalate, List.intersperse] at ih ⊢; exact ih

theorem not_sep_of_mem_split {sep : Char → Bool} {s w : Text} (h : w ∈ split sep s) :
    ∀ c ∈ w, sep c = false := by
  induction s generalizing w with
  | nil => simp [split] at h; simp [h]
  | cons d s ih =>
    rw [split] at h
    split at h
    · rcases List.mem_cons.1 h with rfl | h
      · simp
      · exact ih h
    · rename_i hd
      split at h
      · rename_i hs; exact absurd hs (split_ne_nil _ _)
      · rename_i v vs hs
        rcases List.mem_cons.1 h with rfl | h
        · intro c hc
          rcases List.mem_cons.1 hc with rfl | hc
          · simpa using hd
          · exact ih (by rw [hs]; simp) c hc
        · exact ih (by rw [hs]; simp [h])

/-! ### Replacing -/

/-- Writes `new` for `old`, passing over the next `skip` characters first. -/
def replaceFrom (old new : Text) : Nat → Text → Text
  | _, [] => []
  | skip + 1, _ :: s => replaceFrom old new skip s
  | 0, c :: s =>
    if startsWith (c :: s) old then new ++ replaceFrom old new (old.length - 1) s
    else c :: replaceFrom old new 0 s

/-- Every occurrence of a fragment, from left to right, is written as another one. -/
def replace (old new s : Text) : Text := replaceFrom old new 0 s

/-- The first occurrence of a fragment is written as another one. -/
def replaceFirst (old new : Text) : Text → Text
  | [] => []
  | c :: s =>
    if startsWith (c :: s) old then new ++ (c :: s).drop old.length
    else c :: replaceFirst old new s

/-- One character is written as another one. -/
def substitute (old new : Char) (s : Text) : Text := s.map fun c => if c == old then new else c

/-! ### Layout -/

/-- Spaces in front, up to a given length. -/
def padLeft (width : Nat) (s : Text) : Text := List.replicate (width - s.length) ' ' ++ s

/-- Spaces behind, up to a given length. -/
def padRight (width : Nat) (s : Text) : Text := s ++ List.replicate (width - s.length) ' '

/-- A count in decimal digits. -/
def ofNat (n : Nat) : Text := Nat.toDigits 10 n

/-- The number that decimal digits stand for. -/
def decimalValue (digits : Text) : Nat := digits.foldl (fun n c => n * 10 + (c.toNat - 48)) 0

/-- A whole number in decimal digits, with a minus sign if it is negative. -/
def ofInt : Int → Text
  | .ofNat n => ofNat n
  | .negSucc n => '-' :: ofNat (n + 1)

end Text

end GenScope
