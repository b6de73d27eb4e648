import GenScope.Text.Utf8
import GenScope.Yaml.ScalarText

/-!
# Tokens

Tokens are what a document is written in: marks, names and scalars. Indentation is part of them:
a block opens at the column of its first entry and closes where a line starts further to the left.
A scalar or a bracket becomes a key only when the colon behind it is read, so the place where a
key may start is remembered until then.
-/

namespace GenScope.Yaml

/-- A tag as it is written: a handle, unless the tag is written in full, and the rest. -/
structure TagText where
  handle : Option Text
  suffix : Text
deriving DecidableEq, Repr

inductive Directive
  | version (major : Nat)
  | tag (handle lead : Text)
  | other
deriving DecidableEq, Repr

inductive Token
  | documentStart
  | documentEnd
  | directive (d : Directive)
  | blockSequenceStart
  | blockMappingStart
  | blockEnd
  | flowSequenceStart
  | flowSequenceEnd
  | flowMappingStart
  | flowMappingEnd
  | blockItem
  | flowItem
  | key
  | value
  | alias (name : Text)
  | anchor (name : Text)
  | tag (t : TagText)
  | scalar (text : Text) (plain : Bool)
deriving DecidableEq, Repr

/-- A place where a key may start, on one line and not far back. -/
structure KeyPlace where
  /-- The number of tokens before it. -/
  position : Nat
  index : Nat
  line : Nat
  column : Nat
  /-- Nothing else than a key can stand there. -/
  required : Bool
deriving DecidableEq, Repr

/-- The state of reading tokens. -/
structure Scan where
  cursor : Cursor
  /-- The number of brackets that are open. -/
  flow : Nat
  /-- The column of the innermost block, or -1. -/
  indent : Int
  /-- The columns of the blocks around it. -/
  outer : List Int
  keyAllowed : Bool
  /-- By the number of open brackets, where a key may have started. -/
  keyPlaces : List (Nat × KeyPlace)
  tokens : List Token

namespace Scan

def start (s : Text) : Scan := ⟨Cursor.ofText s, 0, -1, [], true, [], []⟩

def emit (s : Scan) (t : Token) : Scan := { s with tokens := s.tokens ++ [t] }

def moveTo (s : Scan) (c : Cursor) : Scan := { s with cursor := c }

def forbidKey (s : Scan) : Scan := { s with keyAllowed := false }

def allowKey (s : Scan) : Scan := { s with keyAllowed := true }

/-- Inside brackets, indentation does not count. -/
def inFlow (s : Scan) : Bool := s.flow != 0

/-! ### Indentation -/

/-- Closes the blocks that are further to the right than a column. -/
def unwindTo (column : Int) : (outer : List Int) → (indent : Int) → List Token →
    List Int × Int × List Token
  | [], indent, ts => if column < indent then ([], -1, ts ++ [.blockEnd]) else ([], indent, ts)
  | o :: os, indent, ts =>
    if column < indent then unwindTo column os o (ts ++ [.blockEnd]) else (o :: os, indent, ts)

def unwind (s : Scan) (column : Int) : Scan :=
  if s.inFlow then s
  else
    let (outer, indent, tokens) := unwindTo column s.outer s.indent s.tokens
    { s with outer, indent, tokens }

/-- Opens a block at a column, if it is further to the right, with a token at a position. -/
def openBlock (s : Scan) (column position : Nat) (t : Token) : Scan :=
  if s.indent < column then
    { s with
      outer := s.indent :: s.outer
      indent := column
      tokens := s.tokens.insertIdx position t }
  else s

/-! ### Places of keys -/

/-- Forgets the place of a key on this level, unless a key has to stand there. -/
def dropKeyPlace (s : Scan) : Option Scan :=
  match s.keyPlaces.lookup s.flow with
  | some k =>
    if k.required then none
    else some { s with keyPlaces := s.keyPlaces.filter (·.1 != s.flow) }
  | none => some s

/-- Remembers the cursor's place for a key. -/
def markKeyPlace (s : Scan) : Option Scan :=
  if s.keyAllowed then do
    let s ← s.dropKeyPlace
    let c := s.cursor
    let place : KeyPlace :=
      ⟨s.tokens.length, c.index, c.line, c.column, !s.inFlow && s.indent == c.column⟩
    some { s with keyPlaces := (s.flow, place) :: s.keyPlaces }
  else some s

/-- A key and its colon stand on one line, at most so many characters apart. -/
def maxKeyLength : Nat := 1024

/-- Forgets the places that are too far back for a key. -/
def dropStaleKeyPlaces (s : Scan) : Option Scan :=
  let stale (k : KeyPlace) : Bool :=
    k.line != s.cursor.line || maxKeyLength < s.cursor.index - k.index
  if s.keyPlaces.any fun k => stale k.2 && k.2.required then none
  else some { s with keyPlaces := s.keyPlaces.filter fun k => !stale k.2 }

/-! ### Between tokens -/

/-- Moves over spaces, comments and the ends of lines. -/
def toNextToken : Nat → Scan → Scan
  | 0, s => s
  | fuel + 1, s =>
    let c := s.cursor.skipWhile (· == ' ')
    let c := if c.peek 0 == '#' then c.skipWhile (!isLineEnd ·) else c
    if isBreak (c.peek 0) then
      let s := s.moveTo c.lineBreak.2
      toNextToken fuel (if s.inFlow then s else s.allowKey)
    else s.moveTo c

/-! ### Names, tags and directives -/

def isNameChar (c : Char) : Bool := c.isAlphanum || c == '-' || c == '_'

/-- What may follow the name of an anchor. -/
def endsName (c : Char) : Bool :=
  isGap c || c == '?' || c == ':' || c == ',' || c == ']' || c == '}' || c == '%' || c == '@' ||
    c == '\x60'

/-- The name behind the mark of an anchor or an alias. -/
def anchorName (c : Cursor) : Option (Text × Cursor) :=
  let (name, c) := c.next.span isNameChar
  if name.isEmpty || !endsName (c.peek 0) then none else some (name, c)

def isTagChar (c : Char) : Bool :=
  c.isAlphanum || "-;/?:@&=+$,_.!~*\x27()[]%".toList.contains c

/-- The bytes of a tag, in which a percent sign stands before two hexadecimal digits. -/
def tagBytes : Text → Option Bytes
  | [] => some []
  | '%' :: a :: b :: s => do
    let n ← hexNumber? [a, b]
    return UInt8.ofNat n :: (← tagBytes s)
  | '%' :: _ => none
  | c :: s => (tagBytes s).map (Utf8.encode [c] ++ ·)

/-- The characters of a tag, at least one. -/
def tagUri (c : Cursor) : Option (Text × Cursor) := do
  let (written, c) := c.span isTagChar
  if written.isEmpty then none
  else match Utf8.decode (← tagBytes written) with
    | .ok s => some (s, c)
    | .error _ => none

/-- A handle: a name between exclamation marks, or a single one before a space. -/
def tagHandle (c : Cursor) : Option (Text × Cursor) :=
  if c.peek 0 != '!' then none
  else if c.peek 1 == ' ' then some (['!'], c.next)
  else
    let (name, c) := c.next.span isNameChar
    if c.peek 0 == '!' then some ('!' :: name ++ ['!'], c.next) else none

/-- A tag; the cursor is at its exclamation mark. -/
def tagAt (c : Cursor) : Option (TagText × Cursor) := do
  let (tag, c) ←
    if c.peek 1 == '<' then do
      let (suffix, c) ← tagUri (c.skip 2)
      if c.peek 0 == '>' then some ((⟨none, suffix⟩ : TagText), c.next) else none
    else if isGap (c.peek 1) then some (⟨none, ['!']⟩, c.next)
    else do
      let word := c.rest.tail.takeWhile (!isSpaceOrEnd ·)
      let (handle, c) ← if word.contains '!' then tagHandle c else some (['!'], c.next)
      let (suffix, c) ← tagUri c
      some (⟨some handle, suffix⟩, c)
  if isSpaceOrEnd (c.peek 0) then some (tag, c) else none

/-- The decimal number ahead. -/
def versionNumber (c : Cursor) : Option (Nat × Cursor) :=
  let (digits, c) := c.span Char.isDigit
  if digits.isEmpty then none
  else some (Text.decimalValue digits, c)

/-- A directive; the cursor is at its percent sign. -/
def directiveAt (c : Cursor) : Option (Directive × Cursor) := do
  let (name, c) := c.next.span isNameChar
  if name.isEmpty || !isSpaceOrEnd (c.peek 0) then none
  else
    let (d, c) ←
      if name = "YAML".toList then do
        let (major, c) ← versionNumber (c.skipWhile (· == ' '))
        if c.peek 0 != '.' then none
        else
          let (_, c) ← versionNumber c.next
          if isSpaceOrEnd (c.peek 0) then some (Directive.version major, c) else none
      else if name = "TAG".toList then do
        let (handle, c) ← tagHandle (c.skipWhile (· == ' '))
        if c.peek 0 != ' ' then none
        else
          let (lead, c) ← tagUri (c.skipWhile (· == ' '))
          if isSpaceOrEnd (c.peek 0) then some (Directive.tag handle lead, c) else none
      else some (Directive.other, c.skipWhile (!isLineEnd ·))
    some (d, ← restOfLine c)

/-! ### One token -/

/-- Ends all blocks before a mark that stands outside of them. -/
def leaveBlocks (s : Scan) : Option Scan := do
  return (← (s.unwind (-1)).dropKeyPlace).forbidKey

def readDirective (s : Scan) : Option Scan := do
  let s ← s.leaveBlocks
  let (d, c) ← directiveAt s.cursor
  return (s.emit (.directive d)).moveTo c

def readDocumentMark (s : Scan) (t : Token) : Option Scan := do
  let s ← s.leaveBlocks
  return (s.emit t).moveTo (s.cursor.skip 3)

def readOpening (s : Scan) (t : Token) : Option Scan := do
  let s ← s.markKeyPlace
  return ({ s with flow := s.flow + 1 }.allowKey.emit t).moveTo s.cursor.next

def readClosing (s : Scan) (t : Token) : Option Scan := do
  if !s.inFlow then none
  else
    let s ← s.dropKeyPlace
    return ({ s with flow := s.flow - 1 }.forbidKey.emit t).moveTo s.cursor.next

def readFlowItem (s : Scan) : Option Scan := do
  let s ← s.allowKey.dropKeyPlace
  return (s.emit .flowItem).moveTo s.cursor.next

def readBlockItem (s : Scan) : Option Scan := do
  if !s.inFlow && !s.keyAllowed then none
  else
    let s := if s.inFlow then s else s.openBlock s.cursor.column s.tokens.length .blockSequenceStart
    let s ← s.allowKey.dropKeyPlace
    return (s.emit .blockItem).moveTo s.cursor.next

def readKey (s : Scan) : Option Scan := do
  if !s.inFlow && !s.keyAllowed then none
  else
    let s := if s.inFlow then s else s.openBlock s.cursor.column s.tokens.length .blockMappingStart
    let s ← { s with keyAllowed := !s.inFlow }.dropKeyPlace
    return (s.emit .key).moveTo s.cursor.next

/-- A colon makes a key of what stands at the place remembered for it. -/
def readValue (s : Scan) : Option Scan := do
  match s.keyPlaces.lookup s.flow with
  | some k =>
    let s := { s with
      keyPlaces := s.keyPlaces.filter (·.1 != s.flow)
      tokens := s.tokens.insertIdx k.position .key }
    let s := if s.inFlow then s else s.openBlock k.column k.position .blockMappingStart
    return (s.forbidKey.emit .value).moveTo s.cursor.next
  | none =>
    if !s.inFlow && !s.keyAllowed then none
    else
      let s :=
        if s.inFlow then s else s.openBlock s.cursor.column s.tokens.length .blockMappingStart
      let s := { s with keyAllowed := !s.inFlow }
      return (s.emit .value).moveTo s.cursor.next

/-- Reads a token that may be a key. -/
def readKeyLike {α : Type} (s : Scan) (read : Cursor → Option (α × Cursor)) (t : α → Token) :
    Option Scan := do
  let s ← s.markKeyPlace
  let (a, c) ← read s.cursor
  return (s.forbidKey.emit (t a)).moveTo c

def readBlockScalar (s : Scan) : Option Scan := do
  let s ← s.allowKey.dropKeyPlace
  let (text, c) ← blockScalar s.indent s.cursor
  return (s.emit (.scalar text false)).moveTo c

def readPlain (s : Scan) : Option Scan := do
  let s ← s.markKeyPlace
  let (text, c, ended) := plain s.inFlow (s.indent + 1) s.cursor
  return ({ s with keyAllowed := ended }.emit (.scalar text true)).moveTo c

/-- The marks that a plain scalar cannot start with. -/
def isIndicator (c : Char) : Bool := "-?:,[]\x7b\x7d#&*!|>\x27\"%@\x60".toList.contains c

/-- A plain scalar can start at the cursor. -/
def startsPlain (s : Scan) : Bool :=
  let c := s.cursor.peek 0
  (!isGap c && !isIndicator c) ||
    (!isGap (s.cursor.peek 1) && (c == '-' || (!s.inFlow && (c == '?' || c == ':'))))

/-- Reads the token at the cursor, which is not at the end. -/
def readToken (s : Scan) : Option Scan :=
  let c := s.cursor
  let d := c.peek 0
  let gapAhead := isGap (c.peek 1)
  if d == '%' && c.column == 0 then s.readDirective
  else if c.column == 0 && c.sees '-' then s.readDocumentMark .documentStart
  else if c.column == 0 && c.sees '.' then s.readDocumentMark .documentEnd
  else if d == '[' then s.readOpening .flowSequenceStart
  else if d == '{' then s.readOpening .flowMappingStart
  else if d == ']' then s.readClosing .flowSequenceEnd
  else if d == '}' then s.readClosing .flowMappingEnd
  else if d == ',' then s.readFlowItem
  else if d == '-' && gapAhead then s.readBlockItem
  else if d == '?' && (s.inFlow || gapAhead) then s.readKey
  else if d == ':' && (s.inFlow || gapAhead) then s.readValue
  else if d == '*' then s.readKeyLike anchorName .alias
  else if d == '&' then s.readKeyLike anchorName .anchor
  else if d == '!' then s.readKeyLike tagAt .tag
  else if (d == '|' || d == '>') && !s.inFlow then s.readBlockScalar
  else if d == '\x27' || d == '"' then s.readKeyLike quotedScalar (.scalar · false)
  else if s.startsPlain then s.readPlain
  else none

/-- Reads tokens to the end of the document. -/
def run : Nat → Scan → Option (List Token)
  | 0, _ => none
  | fuel + 1, s => do
    let s ← (s.toNextToken (s.cursor.rest.length + 1)).dropStaleKeyPlaces
    let s := s.unwind s.cursor.column
    if s.cursor.atEnd then return (← s.leaveBlocks).tokens
    else (← s.readToken).run fuel

end Scan

/-- The tokens of a document, unless it is malformed. Each one takes at least one character. -/
def tokens? (s : Text) : Option (List Token) := do
  let start := Scan.start s
  let start := if s.head? == some '\uFEFF' then start.moveTo start.cursor.next else start
  start.run (s.length + 1)

end GenScope.Yaml
