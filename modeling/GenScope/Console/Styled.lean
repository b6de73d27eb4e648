import GenScope.Text.Width

/-!
# Styled text

A styled text is a list of runs. It is drawn line by line: characters that move the cursor are left
out, a tab fills up to the next stop, and each stretch of one style stands between the codes of a
terminal if it has them.
-/

namespace GenScope

inductive Style
  | error
  | header
  | label
  | type
  /-- The type that should be made more precise. -/
  | looseType
  | note
  | dim
deriving DecidableEq, Repr

/-- The code that turns a style on. -/
def Style.code : Style → Text
  | .error => "31"
  | .header => "4"
  | .label => "1"
  | .type => "35"
  | .looseType => "31"
  | .note => "36"
  | .dim => "2"

/-- A stretch of text under some styles. -/
structure Run where
  styles : List Style
  text : Text
deriving DecidableEq, Repr

abbrev Styled := List Run

namespace Styled

/-- A text without style. -/
def plain (s : Text) : Styled := [⟨[], s⟩]

/-- A text under one style. -/
def styled (style : Style) (s : Text) : Styled := [⟨[style], s⟩]

/-- A character under its styles. -/
abbrev Cell := Char × List Style

/-- The character would move the cursor. -/
def movesCursor (c : Char) : Bool :=
  c == '\x07' || c == '\x08' || c == '\x0b' || c == '\x0c' || c == '\r'

def cells (t : Styled) : List Cell :=
  t.flatMap fun r => (r.text.filter (!movesCursor ·)).map fun c => (c, r.styles)

/-- The distance between tab stops. -/
def tabSize : Nat := 8

/-- Fills tabs with spaces, in a line that goes on at a column. -/
def expandTabs (column : Nat) : List Cell → List Cell
  | [] => []
  | (c, styles) :: rest =>
    if c = '\t' then
      let n := tabSize - column % tabSize
      List.replicate n (' ', styles) ++ expandTabs (column + n) rest
    else (c, styles) :: expandTabs (column + Text.cellWidth c) rest

/-- The lines of styled characters. -/
def cellLines : List Cell → List (List Cell)
  | [] => [[]]
  | x :: xs =>
    if x.1 = '\n' then [] :: cellLines xs
    else match cellLines xs with
      | [] => [[x]]
      | l :: ls => (x :: l) :: ls

/-- A stretch of one style between its codes. -/
def drawStretch (stretch : List Cell) : Text :=
  let text := stretch.map Prod.fst
  match stretch with
  | (_, s :: ss) :: _ =>
    "\x1b[" ++ Text.join ";" ((s :: ss).map Style.code) ++ "m" ++ text ++ "\x1b[0m"
  | _ => text

def drawLine (codes : Bool) (line : List Cell) : Text :=
  let line := expandTabs 0 line
  if codes then (line.splitBy fun a b => a.2 = b.2).flatMap drawStretch
  else line.map Prod.fst

/-- The text as it is drawn, with a line feed at its end. -/
def draw (codes : Bool) (t : Styled) : Text :=
  Text.join "\n" ((cellLines t.cells).map (drawLine codes)) ++ "\n"

end Styled

end GenScope
