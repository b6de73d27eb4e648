import GenScope.Artifact
import GenScope.Cpp.Comment
import GenScope.Text.Blank
import GenScope.Text.WordChar

/-!
# Local variables

A local variable is declared on a line of its own at the indent of the function's body: a type, a
space and a name with the generator's mark. The compiler's own temporaries are told apart by what
their names hold.
-/

namespace GenScope.Cpp

open Text (isBlank isIdentChar)

/-- What the names of the compiler's temporaries hold. -/
def syntheticFragments : List Text := [
  "v$tmp_expr",
  "v$shorthand_ternary_cond$",
  "v$resumable_temp_var$",
  "v$condition_on_switch$",
  "v$matched_with_one_case$"]

/-- The characters that show that a line is no declaration if they stand before the name. -/
def endsDeclaration (c : Char) : Bool := c == '(' || c == '}' || c == '='

/-- The line declares a local variable, where `before` is what stands before its name. -/
def isLocalDeclaration (line before indent : Text) : Bool :=
  match Text.after? indent line with
  | some (c :: s) =>
    !isBlank c && !Text.startsWith (c :: s) "v$" && !Text.startsWith (c :: s) "return" &&
      !syntheticFragments.any (Text.occursIn · line) && !before.any endsDeclaration
  | _ => false

/-- A marked name after white space: what stands before it and the name. -/
def markedName? : Text → Option (Text × Text)
  | [] => none
  | b :: s =>
    let here : Option (Text × Text) :=
      if isBlank b && Text.startsWith s "v$" then
        match (s.drop 2).takeWhile isIdentChar with
        | [] => none
        | name => some ([], "v$" ++ name)
      else none
    (here.or (markedName? s)).map fun (before, name) => (b :: before, name)

/-- What a line says about local variables. -/
inductive LocalLine
  | other
  | declares (v : Variable)
  /-- The line is a declaration by its shape but names nothing. -/
  | nameless
deriving DecidableEq, Repr

/-- Reads a line of a body with the given indent. -/
def LocalLine.ofLine (indent line : Text) : LocalLine :=
  match Text.position? " v$" line with
  | none => .other
  | some n =>
    if isLocalDeclaration line (line.take n) indent then
      match markedName? line with
      | some (before, name) => .declares ⟨name.drop 1, Text.trim before⟩
      | none => .nameless
    else .other

/-- The variables that some lines declare, or nothing if one of them is nameless. -/
def collectLocals? : List LocalLine → Option (List Variable)
  | [] => some []
  | .other :: ls => collectLocals? ls
  | .declares v :: ls => (collectLocals? ls).map (v :: ·)
  | .nameless :: _ => none

/-- The local variables of a body with the given indent. -/
def localVars? (indent s : Text) : Option (List Variable) :=
  collectLocals? ((Text.lines (stripComments s)).map (LocalLine.ofLine indent))

end GenScope.Cpp
