import GenScope.Text.Basic

/-!
# Types for reading

A type in generated code is shortened for the reader: a class instance is written as the class,
and two names of the runtime as those of the language.
-/

namespace GenScope.Cpp

def instanceLead : Text := "class_instance<C"

/-- The mark of a class and the shortest stretch of a line, not empty, before a closing angle
bracket: the text of both and what they take up with the bracket. -/
def instanceClass? : Text → Option Text
  | '$' :: c :: s =>
    let more := s.takeWhile fun d => d != '>' && d != '\n'
    if c ≠ '\n' ∧ s[more.length]? = some '>' then some ('$' :: c :: more) else none
  | _ => none

/-- Writes each class instance as the class, passing over the next `skip` characters first. -/
def shortenInstancesFrom : Nat → Text → Text
  | _, [] => []
  | skip + 1, _ :: s => shortenInstancesFrom skip s
  | 0, c :: s =>
    match (Text.after? instanceLead (c :: s)).bind instanceClass? with
    | some name =>
      Text.substitute '$' '\\' name ++
        shortenInstancesFrom (instanceLead.length + name.length) s
    | none => c :: shortenInstancesFrom 0 s

def shortenInstances (s : Text) : Text := shortenInstancesFrom 0 s

/-- A type as it is shown to the reader. -/
def prettyType (s : Text) : Text :=
  Text.replace "std::tuple" "tuple" (Text.replace "int64_t" "int" (shortenInstances s))

end GenScope.Cpp
