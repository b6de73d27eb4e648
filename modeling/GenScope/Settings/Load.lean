import GenScope.Log
import GenScope.Settings.Comparison
import GenScope.Settings.Inspector
import GenScope.Yaml.Document

/-!
# Loading settings

Settings come from a file, which is given or searched for, and from the command line, whose values
mask those of the file. A missing file is not an error unless it was asked for; a file that cannot
be read is. What the text of a file stands for and how the values of fields are read is left to
libraries (`SettingsReaders`).
-/

namespace GenScope

/-- What is wrong with the configuration, as it is reported to the user. -/
inductive ConfigurationError
  | fileNotFound (path : Text)
  | unreadableFile (fault : Fault) (path : Text)
  | malformedFile (path : Text)
  | notAnObject (typeName : Text)
  | noRoot
  | missingOption (option : Text)
  | invalid (issues : List Issue)
  | noSearchRoot (path : Text)
  | searchRootNotADirectory (path : Text)
deriving DecidableEq, Repr

def ConfigurationError.message : ConfigurationError → Text
  | .fileNotFound path => "Configuration file not found: " ++ path
  | .unreadableFile fault path =>
    "Cannot read configuration file " ++ path ++ ": " ++ fault.describe path
  | .malformedFile path => "Invalid YAML syntax in " ++ path ++ ": not a single document"
  | .notAnObject typeName => "Configuration file must contain a YAML object, got " ++ typeName
  | .noRoot => "invalid --root cmd argument: root directory is not specified"
  | .missingOption option => "invalid " ++ option ++ " cmd argument"
  | .invalid issues => "Configuration validation failed: " ++ issuesMessage issues
  | .noSearchRoot path => "Search root does not exist: " ++ path
  | .searchRootNotADirectory path => "Search root is not a directory: " ++ path

/-- Why settings cannot be loaded. Only the first cause is reported; the others end the program. -/
inductive LoadFailure
  | configuration (e : ConfigurationError)
  /-- The system does not say what is at a path. -/
  | unanswered (fault : Fault) (path : Text)
  | undecodable (m : Utf8.Misread)
  | badScalar (b : Yaml.BadScalar)
  | directory (f : DirectoryFault)
deriving DecidableEq, Repr

def LoadFailure.message : LoadFailure → Text
  | .configuration e => e.message
  | .unanswered fault path => fault.describe path
  | .undecodable m => m.message
  | .badScalar b => b.message
  | .directory f => f.message

/-- The libraries that settings are read with: what a text in the language of settings files stands
for, and how fields are read. -/
structure SettingsReaders where
  document : Text → Except Yaml.DocumentFault Value
  fields : FieldReaders

def SettingsReaders.lax : SettingsReaders := ⟨Yaml.readDocument, .lax⟩

/-- Settings with what is known about where they came from. -/
structure LoadedSettings where
  settings : InspectorSettings
  /-- Settings that are valid but look wrong. -/
  warnings : List Text
  /-- The file that was read. -/
  file : Option Path
deriving DecidableEq, Repr

namespace LoadedSettings

/-- The component that writes the records. -/
def source : Text := "config.parser.ConfigParser"

def record (level : Level) (message : Text) : Logged Unit := Logged.write level source message

/-- The names a file is searched under, in this order. -/
def fileNames : List Text :=
  [".kphp-inspector.yaml", ".kphp-inspector.yml", "kphp-inspector.yaml"]

/-- What is found at a path, if anything. -/
def found? (t : FileTree) (path : Path) : Except LoadFailure (Option Entry) :=
  (t.found? path).mapError fun fault => .unanswered fault path.toText

/-- The first of some paths that leads to a file. -/
def firstFile (t : FileTree) : List Path → Except LoadFailure (Option Path)
  | [] => .ok none
  | path :: paths => do
    match ← found? t path with
    | some e => if e.isFile then .ok (some path) else firstFile t paths
    | none => firstFile t paths

/-- The first file with a known name in some directories. -/
def findFile (t : FileTree) (directories : List Path) : Except LoadFailure (Option Path) :=
  firstFile t (directories.flatMap fun d => fileNames.map d.child)

/-- The members of a document, of which there are none if it is empty. -/
def membersOf : Value → Except ConfigurationError Members
  | .null => .ok []
  | .object members => .ok members
  | v => .error (.notAnObject v.typeName)

/-- What a settings file says. -/
def readFile (r : SettingsReaders) (t : FileTree) (path : Path) : Logged (Except LoadFailure Members) :=
  match t.read path with
  | .error fault => pure (.error (.configuration (.unreadableFile fault path.toText)))
  | .ok content =>
    match Utf8.readStrict content with
    | .error m => pure (.error (.undecodable m))
    | .ok text =>
      if Text.isAllBlank text then do
        record .warning ("Configuration file is empty: " ++ path.toText)
        return .ok []
      else match r.document text with
        | .error .malformed => pure (.error (.configuration (.malformedFile path.toText)))
        | .error (.badScalar b) => pure (.error (.badScalar b))
        | .ok v => pure ((membersOf v).mapError .configuration)

/-- The members of the file that was asked for, or else of the first one that is found. -/
def readGivenOrFound (r : SettingsReaders) (t : FileTree) (given : Option Path) (directories : List Path) :
    Logged (Except LoadFailure (Option Path × Members)) :=
  match given with
  | some path =>
    match found? t path with
    | .error f => pure (.error f)
    | .ok none => pure (.error (.configuration (.fileNotFound path.toText)))
    | .ok (some _) => do
      return (← readFile r t path).map (some path, ·)
  | none =>
    match findFile t directories with
    | .error f => pure (.error f)
    | .ok (some path) => do
      record .info ("Found configuration file: " ++ path.toText)
      return (← readFile r t path).map (some path, ·)
    | .ok none => do
      record .debug "No configuration file found"
      return .ok (none, [])

/-- The members with those from the command line that have a value. -/
def override (members : Members) (overrides : List (Text × Value)) : Members :=
  overrides.foldl (fun ms (key, v) =>
    match v with
    | .null => ms
    | v => ms.set key v) members

/-- The settings that merged members stand for. -/
def ofMembers (r : FieldReaders) (t : FileTree) (members : Members) : Except LoadFailure InspectorSettings :=
  if ((members.get? "root").getD .null).isEmpty then .error (.configuration .noRoot)
  else match InspectorSettings.ofValue r t (.object members) with
    | .error f => .error (.directory f)
    | .ok (.invalid issues) => .error (.configuration (.invalid issues))
    | .ok (.valid settings) => .ok settings

def warningsFor (t : FileTree) (s : InspectorSettings) : Except LoadFailure (List Text) := do
  let found ← found? t s.classRoot
  return if found.any (·.isDirectory) then [] else ["Class directory not found: " ++ s.classRoot.toText]

/-- Loads the settings. An empty name of a file counts as none. -/
def load (r : SettingsReaders) (t : FileTree) (given : Option Text) (overrides : List (Text × Value))
    (directories : List Path) : Logged (Except LoadFailure LoadedSettings) := do
  let given := (given.filter (!·.isEmpty)).map Path.ofText
  match ← readGivenOrFound r t given directories with
  | .error f => return .error f
  | .ok (file, members) =>
    match ofMembers r.fields t (override members overrides) with
    | .error f => return .error f
    | .ok settings =>
      match warningsFor t settings with
      | .error f => return .error f
      | .ok warnings =>
        let origin : Text := match file with
          | some path => path.toText
          | none => "command line"
        (⟨(), warnings.map (⟨.warning, source, ·⟩)⟩ : Logged Unit)
        record .info ("Configuration loaded from " ++ origin)
        return .ok ⟨settings, warnings, file⟩

end LoadedSettings

namespace ComparisonSettings

/-- The settings of a comparison from the command line. All three directories have to be given. -/
def load (r : FieldReaders) (t : FileTree) (master compared diff skipComments : Value) :
    Except LoadFailure ComparisonSettings :=
  let options : List (Text × Value) :=
    [("--master", master), ("--cmp", compared), ("--diff", diff)]
  match options.find? (·.2.isEmpty) with
  | some (option, _) => .error (.configuration (.missingOption option))
  | none =>
    let members : Members := [(some "master_root", master), (some "cmp_root", compared),
      (some "diff_root", diff), (some "skip_comments", skipComments)]
    match ofValue r t (.object members) with
    | .error f => .error (.directory f)
    | .ok (.invalid issues) => .error (.configuration (.invalid issues))
    | .ok (.valid settings) => .ok settings

end ComparisonSettings

end GenScope
