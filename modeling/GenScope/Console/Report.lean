import GenScope.Artifact
import GenScope.Console.Styled
import GenScope.Cpp.TypeText
import GenScope.Text.Blank
import GenScope.Text.WordChar

/-!
# Reports

What is printed about a function and a class: a heading, the file, and sections that list variables
with their names aligned to the right.
-/

namespace GenScope.Report

def nameWidth : Nat := 24

/-- What a section's heading starts with. -/
def rule : Text := "======================== "

/-- A type as it is printed. A variable type is highlighted, as it is worth making precise. -/
def typeRun (base : List Style) (type : Text) : Run :=
  let text := Cpp.prettyType type
  ⟨base ++ [if text = "var".toList then .looseType else .type], text⟩

def heading (title : Text) : Styled := [⟨[], rule⟩, ⟨[.header], title⟩]

/-- A count and a noun, which takes an s unless there is one thing. -/
def counted (count : Nat) (noun : Text) : Text :=
  Text.ofNat count ++ " " ++ noun ++ (if count = 1 then [] else ['s'])

def variableLine (v : Variable) : Styled :=
  [⟨[.label], Text.padLeft nameWidth v.name ++ " "⟩, typeRun [.label] v.type]

def blankLine : Styled := []

/-- A heading that counts variables, and a line for each. -/
def variableSection (noun : Text) (vs : List Variable) : List Styled :=
  [blankLine, heading (counted vs.length noun)] ++ vs.map variableLine

def fileLine (path : Text) : Styled := Styled.plain ("Source file: " ++ path)

/-- The heading of a function. -/
def functionHeading (f : FunctionArtifact) : Styled := heading (f.name ++ "()")

/-- Everything about a function except its source. -/
def functionInfo (f : FunctionArtifact) : List Styled :=
  [blankLine, functionHeading f, fileLine f.path,
    [⟨[], "Complexity:  "⟩, ⟨[.note], Text.ofNat f.lineCount ++ " lines"⟩],
    [⟨[.label], "@return      "⟩, typeRun [.label] f.returnType]] ++
  (if f.wasInlined then [Styled.styled .note "Was inlined"] else []) ++
  (if f.isResumable then [Styled.styled .note "Is resumable"] else []) ++
  variableSection "argument" f.parameters ++
  variableSection "local var" f.localVars ++ [blankLine]

/-- The line is a comment about checksums, the source file, or a numbered source line. -/
def isDimmed (line : Text) : Bool :=
  match Text.after? "//" line with
  | none => false
  | some s =>
    s.startsWith "crc" || s.startsWith "source" ||
      (s.head?.any Text.isDecimal && (s.dropWhile Text.isDecimal).head? == some ':')

def sourceLine (line : Text) : Styled :=
  if isDimmed line then Styled.styled .dim line else Styled.plain line

/-- The source of a function. -/
def functionSource (f : FunctionArtifact) : List Styled :=
  [blankLine, functionHeading f, blankLine] ++
  (Text.lines (Text.trim f.source)).map sourceLine ++ [blankLine]

/-- Everything about a class. -/
def classInfo (c : ClassArtifact) : List Styled :=
  [blankLine, heading c.name, fileLine c.path] ++
  variableSection "instance var" c.fields ++ [blankLine]

end GenScope.Report
