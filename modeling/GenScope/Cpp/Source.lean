import GenScope.Cpp.Declaration
import GenScope.Cpp.Field
import GenScope.Cpp.Local
import GenScope.Cpp.Parameter
import GenScope.FileTree.Resolve

/-!
# Generated files

A generated file is read once, and what is asked about it is computed from its text. A file of a
function is resumable if it holds the marker anywhere; then a forkable definition is preferred to
a plain one, and the body stands at a deeper indent.
-/

namespace GenScope.Cpp

/-- Why nothing can be said about a generated file. -/
inductive ExtractionError
  | unreadable (fault : Fault) (path : Text)
  | unrecognizedShape (path : Text)
  | noReturnType (path : Text)
  /-- A line declares a local variable by its shape but names nothing. -/
  | namelessLocal
deriving DecidableEq, Repr

namespace ExtractionError

def message : ExtractionError → Text
  | .unreadable fault path =>
    "cannot read generated file (" ++ fault.describe path ++ "): " ++ path
  | .unrecognizedShape path => "unrecognized artifact shape: " ++ path
  | .noReturnType path => "return type not found: " ++ path
  | .namelessLocal => "'NoneType' object has no attribute 'group'"

/-- The error is reported to the user; any other one ends the program. -/
def isReported : ExtractionError → Bool
  | .namelessLocal => false
  | _ => true

end ExtractionError

/-- The text of a generated file. -/
def readSource (t : FileTree) (path : Path) : Except ExtractionError Text :=
  match t.read path with
  | .ok content => .ok (Utf8.readLossy content)
  | .error fault => .error (.unreadable fault path.toText)

/-! ### Functions -/

/-- The text of a function's file. -/
structure FunctionSource where
  path : Path
  headerExtension : Text
  text : Text
deriving DecidableEq, Repr

def resumableMarker : Text := "public Resumable"

namespace FunctionSource

/-- The function's body stands in a header. -/
def wasInlined (f : FunctionSource) : Bool := f.path.name.endsWith f.headerExtension

def isResumable (f : FunctionSource) : Bool := Text.occursIn resumableMarker f.text

/-- The definition that gives the function its name and parameters. -/
def declaration? (f : FunctionSource) : Option Declaration :=
  let plain := Declaration.find? functionLead f.text
  if f.isResumable then (Declaration.find? forkLead f.text).or plain else plain

def declaration (f : FunctionSource) : Except ExtractionError Declaration :=
  match f.declaration? with
  | some d => .ok d
  | none => .error (.unrecognizedShape f.path.toText)

def name (f : FunctionSource) : Except ExtractionError Text :=
  f.declaration.map fun d => demangle d.identifier

def parameters (f : FunctionSource) : Except ExtractionError (List Variable) :=
  f.declaration.map fun d => Cpp.parameters d.parameters

/-- The type at the definition's line or at a later one; without a definition, the first type of
the file. -/
def returnType (f : FunctionSource) : Except ExtractionError Text :=
  let text := match f.declaration? with
    | some d => d.fromLine
    | none => f.text
  match returnType? text with
  | some type => .ok type
  | none => .error (.noReturnType f.path.toText)

/-- What the lines of the body start with. -/
def indent (f : FunctionSource) : Text := if f.isResumable then "    " else "  "

def localVars (f : FunctionSource) : Except ExtractionError (List Variable) :=
  match localVars? f.indent f.text with
  | some vs => .ok vs
  | none => .error .namelessLocal

/-- Everything about the function. The name is looked for first, then the return type, the
parameters and the local variables. -/
def extract (f : FunctionSource) : Except ExtractionError FunctionArtifact := do
  let name ← f.name
  let returnType ← f.returnType
  let parameters ← f.parameters
  let localVars ← f.localVars
  return {
    name, returnType, parameters, localVars
    path := f.path.toText
    wasInlined := f.wasInlined
    isResumable := f.isResumable
    source := f.text }

def ofFile (t : FileTree) (path : Path) (headerExtension : Text) :
    Except ExtractionError FunctionSource :=
  (readSource t path).map (⟨path, headerExtension, ·⟩)

end FunctionSource

/-- The function that a file holds. -/
def extractFunction (t : FileTree) (path : Path) (headerExtension : Text) :
    Except ExtractionError FunctionArtifact := do
  (← FunctionSource.ofFile t path headerExtension).extract

/-- The name of the function that a file holds, and nothing else about it. -/
def readFunctionName (t : FileTree) (path : Path) : Except ExtractionError Text := do
  (← FunctionSource.ofFile t path ".h").name

/-! ### Classes -/

/-- The text of a class header. -/
structure ClassSource where
  path : Path
  text : Text
deriving DecidableEq, Repr

namespace ClassSource

def name (c : ClassSource) : Except ExtractionError Text :=
  match className? c.text with
  | some name => .ok name
  | none => .error (.unrecognizedShape c.path.toText)

def fields (c : ClassSource) : List Variable := Cpp.fields c.text

def extract (c : ClassSource) : Except ExtractionError ClassArtifact := do
  return { name := ← c.name, path := c.path.toText, fields := c.fields, source := c.text }

def ofFile (t : FileTree) (path : Path) : Except ExtractionError ClassSource :=
  (readSource t path).map (⟨path, ·⟩)

end ClassSource

/-- The class that a header declares. -/
def extractClass (t : FileTree) (path : Path) : Except ExtractionError ClassArtifact := do
  (← ClassSource.ofFile t path).extract

/-- The name of the class that a header declares. -/
def readClassName (t : FileTree) (path : Path) : Except ExtractionError Text := do
  (← ClassSource.ofFile t path).name

end GenScope.Cpp
