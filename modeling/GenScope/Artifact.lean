import GenScope.Path

/-!
# Artifacts

An artifact is one generated function or class, as it is read from its file.
-/

namespace GenScope

/-- The kinds of artifacts a query can ask for. -/
inductive ArtifactKind
  | function
  | classType
deriving DecidableEq, Repr

/-- A parameter, a local variable or a field. -/
structure Variable where
  name : Text
  type : Text
deriving DecidableEq, Repr

/-- A generated function. -/
structure FunctionArtifact where
  name : Text
  path : Text
  wasInlined : Bool
  isResumable : Bool
  returnType : Text
  parameters : List Variable
  localVars : List Variable
  source : Text
deriving DecidableEq, Repr

/-- A generated class. -/
structure ClassArtifact where
  name : Text
  path : Text
  fields : List Variable
  source : Text
deriving DecidableEq, Repr

/-- The number of lines of a function's file. -/
def FunctionArtifact.lineCount (f : FunctionArtifact) : Nat := (Text.lines f.source).length

def FunctionArtifact.fileName (f : FunctionArtifact) : Text := (Path.ofText f.path).name

def ClassArtifact.fileName (c : ClassArtifact) : Text := (Path.ofText c.path).name

end GenScope
