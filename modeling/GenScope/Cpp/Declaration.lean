import GenScope.MangledName
import GenScope.Text.Blank

/-!
# Function declarations

A function definition is recognised by its shape: white space, an identifier with the generator's
lead, a parameter list on one line, and then, possibly after `noexcept`, an opening brace.
`Declaration.find?` gives the first one in a text, and `returnType?` the type written before the
first call shape that starts its line with a word character.
-/

namespace GenScope.Cpp

open Text (isBlank isWordChar isIdentChar)

/-- The text goes on with white space and an opening brace, possibly with `noexcept` between. -/
def opensBody : Text → Bool
  | b :: s =>
    isBlank b &&
      match Text.after? "noexcept" s with
      | some s => s.head?.any isBlank && (s.dropWhile isBlank).head? == some '{'
      | none => s.head? == some '{'
  | [] => false

/-- The shortest stretch of a line that ends at a closing bracket before a body. -/
def parameterText? : Text → Option Text
  | [] => none
  | c :: s =>
    if c == ')' && opensBody s then some []
    else if c == '\n' then none
    else (parameterText? s).map (c :: ·)

/-- The identifier with the given lead at the start of a text, and what follows its opening
bracket. -/
def callHead? (lead s : Text) : Option (Text × Text) :=
  match Text.after? lead s with
  | none => none
  | some s =>
    match s.takeWhile isIdentChar, s.dropWhile isIdentChar with
    | c :: name, '(' :: rest => some (lead ++ c :: name, rest)
    | _, _ => none

/-- A function definition found in a text. -/
structure Declaration where
  /-- The text before the identifier. -/
  before : Text
  identifier : Text
  parameters : Text
  /-- The text from the identifier on. -/
  rest : Text
deriving DecidableEq, Repr

namespace Declaration

/-- The definition whose identifier starts a text. -/
def at? (lead s : Text) : Option Declaration :=
  match callHead? lead s with
  | none => none
  | some (identifier, rest) =>
    (parameterText? rest).map fun parameters => ⟨[], identifier, parameters, s⟩

/-- The first definition whose identifier has the given lead. -/
def find? (lead : Text) : Text → Option Declaration
  | [] => none
  | b :: s =>
    let here := if isBlank b then at? lead s else none
    (here.or (find? lead s)).map fun d => { d with before := b :: d.before }

/-- The text from the start of the line on which the identifier stands. -/
def fromLine (d : Declaration) : Text := Text.lastLine d.before ++ d.rest

/-- No character is lost around a definition. -/
theorem before_append_rest {lead s : Text} {d : Declaration} (h : find? lead s = some d) :
    d.before ++ d.rest = s := by
  induction s generalizing d with
  | nil => cases h
  | cons b s ih =>
    rw [find?] at h
    obtain ⟨e, he, rfl⟩ := Option.map_eq_some_iff.1 h
    rcases Option.or_eq_some_iff.1 he with he | ⟨-, he⟩
    · split at he
      · unfold at? at he
        split at he
        · cases he
        · obtain ⟨p, -, rfl⟩ := Option.map_eq_some_iff.1 he
          rfl
      · cases he
    · simp [ih he]

end Declaration

/-! ### Return types -/

/-- White space, a function's identifier and an opening bracket. -/
def startsCall : Text → Bool
  | b :: s => isBlank b && (callHead? functionLead s).isSome
  | [] => false

/-- The shortest stretch of a line, not empty, that stands before a call shape. -/
def typeText? : Text → Option Text
  | [] => none
  | c :: s =>
    if c == '\n' then none
    else if startsCall s then some [c]
    else (typeText? s).map (c :: ·)

/-- The type at the start of a line: a word character and the shortest stretch after it. -/
def typeAtLine? : Text → Option Text
  | c :: s => if isWordChar c then (typeText? s).map (c :: ·) else none
  | [] => none

/-- The type at the first line that has one. -/
def typeFrom? (atLineStart : Bool) : Text → Option Text
  | [] => none
  | c :: s =>
    (if atLineStart then typeAtLine? (c :: s) else none).or (typeFrom? (c == '\n') s)

/-- The return type that a text gives, read from its first line on. -/
def returnType? (s : Text) : Option Text :=
  (typeFrom? true s).map (Text.replace "inline " "")

end GenScope.Cpp
