import GenScope.Yaml.Cursor

/-!
# The text of scalars

A scalar is written plainly, between quotes, or as a block of indented lines. In each form a single
line break inside the text is folded into a space, and each further one is kept; a literal block
keeps them all. Every reader goes through the document with its length as fuel.
-/

namespace GenScope.Yaml

/-! ### Plain scalars -/

/-- Marks that end a plain scalar inside brackets. -/
def isFlowMark (c : Char) : Bool := c == ',' || c == '[' || c == ']' || c == '{' || c == '}'

/-- A plain scalar stops before a character, given the next one. -/
def stopsPlain (flow : Bool) (c next : Char) : Bool :=
  isGap c || (c == ':' && (isGap next || (flow && isFlowMark next))) ||
    (flow && (c == '?' || isFlowMark c))

/-- The length of the stretch of a plain scalar ahead. -/
def plainLength (flow : Bool) : Text → Nat
  | [] => 0
  | c :: s => if stopsPlain flow c (s.head?.getD '\x00') then 0 else plainLength flow s + 1

/-- Goes over blank lines and indents: the breaks after the first one, unless a document ends. -/
def blankLines : Nat → Cursor → Option Text × Cursor
  | 0, c => (some [], c)
  | fuel + 1, c =>
    if c.peek 0 == ' ' then blankLines fuel c.next
    else if isBreak (c.peek 0) then
      let (b, c) := c.lineBreak
      if c.seesDocumentMark then (none, c)
      else
        let (bs, c) := blankLines fuel c
        (bs.map (b ++ ·), c)
    else (some [], c)

/-- What a first line break and the ones after it are read as. -/
def foldBreaks (first more : Text) : Text :=
  (if first != ['\n'] then first else if more.isEmpty then [' '] else []) ++ more

/-- The space after a stretch of a plain scalar, and whether it ends the line. -/
def plainSpace (c : Cursor) : Text × Cursor × Bool :=
  let (spaces, c) := c.span (· == ' ')
  if isBreak (c.peek 0) then
    let (b, c) := c.lineBreak
    if c.seesDocumentMark then ([], c, true)
    else match blankLines (c.rest.length + 1) c with
      | (none, c) => ([], c, true)
      | (some bs, c) => (foldBreaks b bs, c, true)
  else (spaces, c, false)

/-- A plain scalar after some space, and whether a line was ended behind it. -/
def plainFrom (flow : Bool) (indent : Int) : Nat → (space : Text) → (ended : Bool) → Cursor →
    Text × Cursor × Bool
  | 0, _, ended, c => ([], c, ended)
  | fuel + 1, space, ended, c =>
    let n := plainLength flow c.rest
    if c.peek 0 == '#' || n == 0 then ([], c, ended)
    else
      let chunk := space ++ c.rest.take n
      let (space, c, ended) := plainSpace (c.skip n)
      if space.isEmpty || c.peek 0 == '#' || (!flow && (c.column : Int) < indent) then
        (chunk, c, ended)
      else
        let (more, c, ended) := plainFrom flow indent fuel space ended c
        (chunk ++ more, c, ended)

/-- A plain scalar whose lines start at an indent or behind it. -/
def plain (flow : Bool) (indent : Int) (c : Cursor) : Text × Cursor × Bool :=
  plainFrom flow indent (c.rest.length + 1) [] false c

/-! ### Quoted scalars -/

/-- The breaks and indents inside quotes; a document mark is not allowed there. -/
def quotedBreaks : Nat → Cursor → Option (Text × Cursor)
  | 0, _ => none
  | fuel + 1, c =>
    if c.seesDocumentMark then none
    else
      let c := c.skipWhile fun d => d == ' ' || d == '\t'
      if isBreak (c.peek 0) then
        let (b, c) := c.lineBreak
        (quotedBreaks fuel c).map fun (bs, c) => (b ++ bs, c)
      else some ([], c)

/-- Escapes of one character. -/
def escapes : List (Char × Char) := [
  ('0', '\x00'), ('a', '\x07'), ('b', '\x08'), ('t', '\t'), ('\t', '\t'), ('n', '\n'),
  ('v', '\x0b'), ('f', '\x0c'), ('r', '\r'), ('e', '\x1b'), (' ', ' '), ('"', '"'),
  ('\\', '\\'), ('/', '/'), ('N', '\x85'), ('_', '\u00a0'), ('L', '\u2028'), ('P', '\u2029')]

/-- Escapes by code point and their numbers of digits. -/
def codeEscapes : List (Char × Nat) := [('x', 2), ('u', 4), ('U', 8)]

def hexValue? (c : Char) : Option Nat :=
  if c.isDigit then some (c.toNat - 48)
  else if 'a' ≤ c ∧ c ≤ 'f' then some (c.toNat - 87)
  else if 'A' ≤ c ∧ c ≤ 'F' then some (c.toNat - 55)
  else none

/-- The number that hexadecimal digits stand for. -/
def hexNumber? (digits : Text) : Option Nat :=
  digits.foldl (fun n c => n.bind fun n => (hexValue? c).map (n * 16 + ·)) (some 0)

/-- The character of a code point; a half of a surrogate pair is none. -/
def charOfCode? (n : Nat) : Option Char :=
  if h : n.isValidChar then some ⟨n.toUInt32, by
    have hlt : n < 2 ^ 32 := by rcases h with h | h <;> omega
    simpa [UInt32.isValidChar, Nat.toUInt32, UInt32.toNat_ofNat_of_lt' hlt] using h⟩
  else if n < 0x110000 then some '\uFFFD' else none

/-- Reads what follows a backslash between double quotes. -/
def escape (c : Cursor) : Option (Text × Cursor) :=
  let d := c.peek 0
  match escapes.lookup d, codeEscapes.lookup d with
  | some e, _ => some ([e], c.next)
  | none, some n => do
    let digits := c.next.rest.take n
    if digits.length < n then none
    else some ([← charOfCode? (← hexNumber? digits)], c.skip (n + 1))
  | none, none =>
    if isBreak d then quotedBreaks (c.rest.length + 1) c.lineBreak.2 else none

/-- What stands between a quote and the next one. -/
def quotedFrom (quote : Char) : Nat → Cursor → Option (Text × Cursor)
  | 0, _ => none
  | fuel + 1, c =>
    let d := c.peek 0
    let goOn (s : Text) (c : Cursor) : Option (Text × Cursor) :=
      (quotedFrom quote fuel c).map fun (more, c) => (s ++ more, c)
    if c.atEnd then none
    else if d == quote then
      if d == '\x27' && c.peek 1 == d then goOn [d] (c.skip 2) else some ([], c.next)
    else if d == '\\' && quote == '"' then
      match escape c.next with
      | some (s, c) => goOn s c
      | none => none
    else if d == ' ' || d == '\t' || isBreak d then
      let (spaces, c) := c.span fun d => d == ' ' || d == '\t'
      if c.atEnd then none
      else if isBreak (c.peek 0) then
        let (b, c) := c.lineBreak
        match quotedBreaks (c.rest.length + 1) c with
        | some (bs, c) => goOn (foldBreaks b bs) c
        | none => none
      else goOn spaces c
    else goOn [d] c.next

/-- A scalar between quotes; the cursor is at the first one. -/
def quotedScalar (c : Cursor) : Option (Text × Cursor) :=
  quotedFrom (c.peek 0) (c.rest.length + 1) c.next

/-! ### Block scalars -/

/-- What happens to the line breaks at the end of a block. -/
inductive Chomping
  | clip
  | strip
  | keep
deriving DecidableEq, Repr

def chompingOf? (c : Char) : Option Chomping :=
  if c == '+' then some .keep else if c == '-' then some .strip else none

/-- The digit that says how far a block is indented; it is never zero. -/
def incrementOf? (c : Char) : Option Nat :=
  if c.isDigit && c != '0' then some (c.toNat - 48) else none

/-- The indicators behind the mark of a block, in either order. -/
def blockIndicators (c : Cursor) : Chomping × Option Nat × Cursor :=
  match chompingOf? (c.peek 0), incrementOf? (c.peek 0) with
  | some ch, _ =>
    match incrementOf? (c.peek 1) with
    | some n => (ch, some n, c.skip 2)
    | none => (ch, none, c.next)
  | none, some n =>
    match chompingOf? (c.peek 1) with
    | some ch => (ch, some n, c.skip 2)
    | none => (.clip, some n, c.next)
  | none, none => (.clip, none, c)

/-- Moves over spaces and a comment to the end of the line, and over it. -/
def restOfLine (c : Cursor) : Option Cursor :=
  let c := c.skipWhile (· == ' ')
  let c := if c.peek 0 == '#' then c.skipWhile (!isLineEnd ·) else c
  if isLineEnd (c.peek 0) then some c.lineBreak.2 else none

/-- The blank lines at the start of a block, and the deepest indent among them. -/
def blockStart : Nat → (deepest : Nat) → Cursor → Text × Nat × Cursor
  | 0, deepest, c => ([], deepest, c)
  | fuel + 1, deepest, c =>
    if c.peek 0 == ' ' then
      let c := c.next
      blockStart fuel (max deepest c.column) c
    else if isBreak (c.peek 0) then
      let (b, c) := c.lineBreak
      let (bs, deepest, c) := blockStart fuel deepest c
      (b ++ bs, deepest, c)
    else ([], deepest, c)

/-- Blank lines, and the indent of the line behind them. -/
def blockBreaks (indent : Nat) : Nat → Cursor → Text × Cursor
  | 0, c => ([], c)
  | fuel + 1, c =>
    if c.column < indent && c.peek 0 == ' ' then blockBreaks indent fuel c.next
    else if isBreak (c.peek 0) then
      let (b, c) := c.lineBreak
      let (bs, c) := blockBreaks indent fuel c
      (b ++ bs, c)
    else ([], c)

/-- The lines of a block, with the line break and the blank lines at their end. -/
structure BlockLines where
  text : Text
  lastBreak : Text
  blank : Text
  cursor : Cursor

def isSpaceOrTab (c : Char) : Bool := c == ' ' || c == '\t'

def blockLines (folded : Bool) (indent : Nat) : Nat → (blank : Text) → Cursor → BlockLines
  | 0, blank, c => ⟨[], [], blank, c⟩
  | fuel + 1, blank, c =>
    if c.column == indent && !c.atEnd then
      let indented := isSpaceOrTab (c.peek 0)
      let (line, c) := c.span (!isLineEnd ·)
      let (b, c) := c.lineBreak
      let (more, c) := blockBreaks indent (c.rest.length + 1) c
      if c.column == indent && !c.atEnd then
        let between : Text :=
          if folded && b == ['\n'] && !indented && !isSpaceOrTab (c.peek 0) then
            if more.isEmpty then [' '] else []
          else b
        let tail := blockLines folded indent fuel more c
        { tail with text := blank ++ line ++ between ++ tail.text }
      else ⟨blank ++ line, b, more, c⟩
    else ⟨[], [], blank, c⟩

/-- A block scalar inside a collection at an indent; the cursor is at its mark. -/
def blockScalar (outer : Int) (c : Cursor) : Option (Text × Cursor) := do
  let folded := c.peek 0 == '>'
  let (chomping, increment, c) := blockIndicators c.next
  if !isSpaceOrEnd (c.peek 0) then none
  else
    let c ← restOfLine c
    let least := (max (outer + 1) 1).toNat
    let fuel := c.rest.length + 1
    let (indent, blank, c) := match increment with
      | none =>
        let (blank, deepest, c) := blockStart fuel 0 c
        (max least deepest, blank, c)
      | some n =>
        let (blank, c) := blockBreaks (least + n - 1) fuel c
        (least + n - 1, blank, c)
    let lines := blockLines folded indent fuel blank c
    let tail := match chomping with
      | .strip => []
      | .clip => lines.lastBreak
      | .keep => lines.lastBreak ++ lines.blank
    some (lines.text ++ tail, lines.cursor)

end GenScope.Yaml
