import GenScope.Settings.Directory

/-!
# Settings of the inspector

The settings say where the generated tree is and how the generator names its files. They are
checked once, when they are made, and never change.
-/

namespace GenScope

structure InspectorSettings where
  /-- The directory of the generated tree. -/
  root : Text
  /-- The directory of the class headers, inside the tree. -/
  classSubdir : Text
  /-- What the file name of a class header starts with. -/
  classFileLead : Text
  sourceExtension : Text
  headerExtension : Text
  debug : Bool
deriving DecidableEq, Repr

namespace InspectorSettings

def rootPath (s : InspectorSettings) : Path := Path.ofText s.root

/-- Where class headers live. -/
def classRoot (s : InspectorSettings) : Path := s.rootPath.join (Path.ofText s.classSubdir)

/-- The part of a path that tells a class header. -/
def classMarker (s : InspectorSettings) : Text := s.classSubdir ++ "/" ++ s.classFileLead

/-- An extension starts with a dot. -/
def dotted (extension : Text) : Text :=
  if extension.startsWith "." then extension else '.' :: extension

/-- The name of the settings in messages. -/
def modelName : Text := "InspectorConfig"

/-- Reads the settings from an object; the root is looked up in the file tree. -/
def ofValue (r : FieldReaders) (t : FileTree) (v : Value) : Except DirectoryFault (Checked InspectorSettings) :=
  match Reader.object modelName v with
  | .invalid issues => .ok (.invalid issues)
  | .valid members => do
    let root ← members.directory r t "root" "Root"
    return (root.map InspectorSettings.mk)
      |>.seq (members.optional "class_subdir" "cl" r.nonEmptyText)
      |>.seq (members.optional "class_file_prefix" "C@" r.text)
      |>.seq ((members.optional "source_extension" (".cpp" : Text) r.text).map dotted)
      |>.seq ((members.optional "header_extension" (".h" : Text) r.text).map dotted)
      |>.seq (members.optional "debug" false r.boolean)

/-- The settings as an object, under the keys they are read from. -/
def toValue (s : InspectorSettings) : Value := .object [
  (some "root", .text s.root),
  (some "class_subdir", .text s.classSubdir),
  (some "class_file_prefix", .text s.classFileLead),
  (some "source_extension", .text s.sourceExtension),
  (some "header_extension", .text s.headerExtension),
  (some "debug", .boolean s.debug)]

/-- The settings in one line. -/
def summary (s : InspectorSettings) : Text :=
  modelName ++ "(root=" ++ s.root ++ ", debug=" ++ (if s.debug then "True" else "False") ++ ")"

/-- What is wrong with setting an attribute afterwards. -/
def setIssue (name : Text) : Issue := ⟨[name], .frozen⟩

end InspectorSettings

end GenScope
