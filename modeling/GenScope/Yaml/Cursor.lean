import GenScope.Text.Basic

/-!
# A place in a document

A cursor is the rest of a document with the place where it starts. It moves forward only, and its
rest gets shorter as it does (`length_skip`).
-/

namespace GenScope.Yaml

/-- A character that ends a line. -/
def isBreak (c : Char) : Bool :=
  c == '\n' || c == '\r' || c == '\x85' || c == '\u2028' || c == '\u2029'

/-- A space, a tab, the end of a line or the end of the document. -/
def isGap (c : Char) : Bool := c == ' ' || c == '\t' || c == '\x00' || isBreak c

/-- The end of a line or of the document. -/
def isLineEnd (c : Char) : Bool := c == '\x00' || isBreak c

/-- The same or a space. -/
def isSpaceOrEnd (c : Char) : Bool := c == ' ' || isLineEnd c

structure Cursor where
  rest : Text
  /-- The number of characters before. -/
  index : Nat
  line : Nat
  column : Nat
deriving DecidableEq, Repr

namespace Cursor

def ofText (s : Text) : Cursor := ⟨s, 0, 0, 0⟩

/-- The character at a distance; a zero character stands for the end of the document. -/
def peek (c : Cursor) (n : Nat) : Char := c.rest[n]?.getD '\x00'

def atEnd (c : Cursor) : Bool := c.rest.isEmpty

/-- Moves over one character. A byte order mark does not count as a column. -/
def next (c : Cursor) : Cursor :=
  match c.rest with
  | [] => c
  | d :: rest =>
    if (d == '\r' && rest.head? != some '\n') || (d != '\r' && isBreak d) then
      ⟨rest, c.index + 1, c.line + 1, 0⟩
    else ⟨rest, c.index + 1, c.line, if d == '\uFEFF' then c.column else c.column + 1⟩

def skip (c : Cursor) : Nat → Cursor
  | 0 => c
  | n + 1 => c.next.skip n

/-- The characters ahead that have a property, and the place behind them. -/
def span (p : Char → Bool) (c : Cursor) : Text × Cursor :=
  let found := c.rest.takeWhile p
  (found, c.skip found.length)

def skipWhile (p : Char → Bool) (c : Cursor) : Cursor := (c.span p).2

/-- Moves over the end of a line, if the cursor is there: what it is read as. -/
def lineBreak (c : Cursor) : Text × Cursor :=
  match c.rest with
  | '\r' :: '\n' :: _ => (['\n'], c.skip 2)
  | d :: _ =>
    if d == '\u2028' || d == '\u2029' then ([d], c.next)
    else if isBreak d then (['\n'], c.next)
    else ([], c)
  | [] => ([], c)

/-- Three equal marks and a gap stand ahead. -/
def sees (c : Cursor) (mark : Char) : Bool :=
  c.peek 0 == mark && c.peek 1 == mark && c.peek 2 == mark && isGap (c.peek 3)

/-- A line that starts or ends a document stands ahead. -/
def seesDocumentMark (c : Cursor) : Bool := c.sees '-' || c.sees '.'

theorem length_next (c : Cursor) : c.next.rest.length = c.rest.length - 1 := by
  unfold next
  split
  · simp_all
  · split <;> simp_all

theorem length_skip (c : Cursor) (n : Nat) : (c.skip n).rest.length = c.rest.length - n := by
  induction n generalizing c with
  | zero => rfl
  | succ n ih => rw [skip, ih, length_next]; omega

end Cursor

end GenScope.Yaml
