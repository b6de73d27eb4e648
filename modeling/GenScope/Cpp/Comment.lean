import GenScope.Text.Basic

/-!
# Comment lines

The generator writes its comments on lines of their own. A comment line has at least one character
after the two slashes and ends in a line feed; a bare pair of slashes and a last line that is not
ended are code.
-/

namespace GenScope.Cpp

/-- The lines of a text with the line feeds that end them. -/
def endedLines : Text → List Text
  | [] => []
  | c :: s =>
    if c = '\n' then [c] :: endedLines s
    else match endedLines s with
      | [] => [[c]]
      | l :: ls => (c :: l) :: ls

/-- The line is a comment. -/
def isCommentLine (line : Text) : Bool :=
  line.startsWith "//" && 4 ≤ line.length && line.endsWith "\n"

/-- The text without its comment lines. -/
def stripComments (s : Text) : Text := ((endedLines s).filter (!isCommentLine ·)).flatten

theorem flatten_endedLines (s : Text) : (endedLines s).flatten = s := by
  induction s with
  | nil => rfl
  | cons c s ih =>
    rw [endedLines]
    split
    · simp [ih]
    · split <;> simp_all

end GenScope.Cpp
