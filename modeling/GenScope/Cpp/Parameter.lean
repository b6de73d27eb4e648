import GenScope.Artifact
import GenScope.Text.Blank

/-!
# Parameter lists

A parameter list is cut at the commas outside round and angle brackets, and each declaration is
read from its last space: the name stands behind it and the type before it.
-/

namespace GenScope.Cpp

/-- How a character changes the depth of nesting. -/
def nesting (c : Char) : Int :=
  if c = '(' ∨ c = '<' then 1 else if c = ')' ∨ c = '>' then -1 else 0

/-- The stretches between the commas at depth zero or below. -/
def topLevelPieces (depth : Int) : Text → List Text
  | [] => [[]]
  | c :: s =>
    if c = ',' ∧ depth ≤ 0 then [] :: topLevelPieces depth s
    else match topLevelPieces (depth + nesting c) s with
      | [] => [[c]]
      | p :: ps => (c :: p) :: ps

/-- The declarations of a parameter list, trimmed. Nothing is declared by a blank end. -/
def splitParameters (s : Text) : List Text :=
  let pieces := (topLevelPieces 0 s).map Text.trim
  if pieces.getLast? = some [] then pieces.dropLast else pieces

/-- The variable that a declaration declares. The type loses a `const` at its end, and the name
the ampersands and letters v before it. -/
def parseParameter (declaration : Text) : Variable :=
  let declaration := Text.trim declaration
  let (type, name) := (Text.splitLast? ' ' declaration).getD ([], declaration)
  let type := Text.trim type
  { name := name.dropWhile fun c => c == '&' || c == 'v'
    type := if type.endsWith " const" then type.take (type.length - 6) else type }

/-- The name of the object that a method is called on. -/
def receiverName : Text := "$this"

/-- The variables of a parameter list, without the receiver. -/
def parameters (s : Text) : List Variable :=
  ((splitParameters s).map parseParameter).filter (·.name != receiverName)

end GenScope.Cpp
