import GenScope.Text.WordChar

/-!
# Names in generated code

A generated identifier joins the parts of a name with dollar signs, two of them before a method.
`demangle` gives the name back.
-/

namespace GenScope

/-- What every generated function's identifier starts with. -/
def functionLead : Text := "f$"

/-- What the identifier of a forkable function starts with. -/
def forkLead : Text := "f$fork$"

/-- A name without the given start, if it has it. -/
def dropLead (lead name : Text) : Text := (Text.after? lead name).getD name

/-- The name that an identifier stands for. A second pair of dollar signs names the class that
inherits a method. -/
def demangle (identifier : Text) : Text :=
  let name := dropLead functionLead (dropLead forkLead identifier)
  let name := Text.replaceFirst "$$" "::" name
  let name := Text.replaceFirst "$$" "__" name
  Text.substitute '$' '\\' name

/-- The class name that an identifier without its mark stands for. -/
def demangleClass (identifier : Text) : Text := Text.substitute '$' '\\' identifier

end GenScope
