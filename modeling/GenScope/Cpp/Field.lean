import GenScope.Artifact
import GenScope.MangledName
import GenScope.Text.Blank

/-!
# Classes

A class is declared by a line that starts with `struct` and the mark of a class. Its fields stand
on lines with an indent of two: a type, white space, a name after a dollar sign, and an opening
brace.
-/

namespace GenScope.Cpp

open Text (isBlank isWordChar isIdentChar)

/-! ### The name -/

/-- The identifier of the class that a line declares, without the mark. -/
def classAtLine? (s : Text) : Option Text :=
  match Text.after? "struct" s with
  | some (b :: s) =>
    if isBlank b then
      match (Text.after? "C$" s).map (·.takeWhile isIdentChar) with
      | some (c :: name) => some (c :: name)
      | _ => none
    else none
  | _ => none

/-- The identifier of the first class that a text declares. -/
def classFrom? (atLineStart : Bool) : Text → Option Text
  | [] => none
  | c :: s =>
    (if atLineStart then classAtLine? (c :: s) else none).or (classFrom? (c == '\n') s)

def className? (s : Text) : Option Text := (classFrom? true s).map demangleClass

/-! ### Fields -/

/-- White space, a dollar sign, a word and an opening brace: the word and what they take up. -/
def fieldName? : Text → Option (Text × Nat)
  | b :: '$' :: s =>
    if isBlank b then
      match s.takeWhile isWordChar, s.dropWhile isWordChar with
      | c :: name, '{' :: _ => some (c :: name, name.length + 4)
      | _, _ => none
    else none
  | _ => none

/-- The shortest stretch of a line, not empty, before a field's name: type, name and length. -/
def fieldBody? : Text → Option (Variable × Nat)
  | [] => none
  | c :: s =>
    if c == '\n' then none
    else match fieldName? s with
      | some (name, n) => some (⟨name, [c]⟩, n + 1)
      | none => (fieldBody? s).map fun (v, n) => ({ v with type := c :: v.type }, n + 1)

/-- The field declared at the start of a line, and the length of its declaration. -/
def fieldAtLine? (s : Text) : Option (Variable × Nat) :=
  (Text.after? "  " s).bind fun s => (fieldBody? s).map fun (v, n) => (v, n + 2)

/-- The fields declared after the next `skip` characters. -/
def fieldsFrom : (skip : Nat) → (atLineStart : Bool) → Text → List Variable
  | _, _, [] => []
  | skip + 1, _, c :: s => fieldsFrom skip (c == '\n') s
  | 0, atLineStart, c :: s =>
    match if atLineStart then fieldAtLine? (c :: s) else none with
    | some (v, n) => v :: fieldsFrom (n - 1) false s
    | none => fieldsFrom 0 (c == '\n') s

/-- The fields of a class, in the order of their declarations. -/
def fields (s : Text) : List Variable := fieldsFrom 0 true s

end GenScope.Cpp
