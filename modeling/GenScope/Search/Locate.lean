import GenScope.MangledName
import GenScope.Query
import GenScope.Search.Scan
import GenScope.Search.Words

/-!
# Candidates

The files that may hold what a query asks for. A fully qualified query stands for the start of a
file name; any other seeds a scan with its longest word and keeps the files that all its words
occur in. A function has one file: its source, or the header it was inlined into.
-/

namespace GenScope

namespace Locate

def source : Text := "tools.locator"

/-- A path as it is below a directory; another path is taken as a whole. -/
def relativeText (p root : Path) : Text :=
  match p.relativeTo? root with
  | some names => Path.toText ⟨.relative, names⟩
  | none => p.toText

/-- A path without an extension. -/
def stem (p : Path) (extension : Text) : Text :=
  p.toText.take (p.toText.length - extension.length)

/-! ### Which files can hold a function -/

/-- The file is the header of a class. -/
def isClassHeader (s : InspectorSettings) (p : Path) : Bool :=
  let relative := relativeText p s.rootPath
  relative.startsWith s.classMarker || Text.occursIn ('/' :: s.classMarker) relative

/-- The stems of the sources among some files. -/
def sourceStems (s : InspectorSettings) (paths : List Path) : List Text :=
  (paths.filter fun p => p.name.endsWith s.sourceExtension).map (stem · s.sourceExtension)

/-- The file is a source, or a header that neither has a source beside it nor declares a class. -/
def canHoldFunction (s : InspectorSettings) (stems : List Text) (p : Path) : Bool :=
  if p.name.endsWith s.sourceExtension then true
  else if p.name.endsWith s.headerExtension then
    !stems.contains (stem p s.headerExtension) && !isClassHeader s p
  else false

/-- The files that can hold a function, one for each, in their order. -/
def functionFiles (s : InspectorSettings) (paths : List Path) : List Path :=
  (paths.filter (canHoldFunction s (sourceStems s paths))).eraseDups

/-- The text holds a function's identifier and an opening bracket. -/
def holdsFunction (text : Text) : Bool :=
  Text.occursIn (' ' :: functionLead) text && text.contains '('

/-- The file holds a definition. A file that cannot be read does not. -/
def containsFunction (t : FileTree) (p : Path) : Logged Bool :=
  match t.read p with
  | .ok content => pure (holdsFunction (Utf8.readLossy content))
  | .error fault => do
    Logged.write .warning source
      ("Cannot read candidate " ++ p.toText ++ ": " ++ fault.describe p.toText)
    return false

/-- The files that hold a definition. -/
def keepDefinitions (t : FileTree) : List Path → Logged (List Path)
  | [] => pure []
  | p :: ps => do
    let kept ← containsFunction t p
    let rest ← keepDefinitions t ps
    return if kept then p :: rest else rest

/-! ### Queries -/

/-- Reports what a scan for a query saw and gave. -/
def report (kind : Text) (q : SearchQuery) (stats : ScanStats) (found candidates : List Path) :
    Logged Unit :=
  Logged.write .debug source (kind ++ " query '" ++ q.raw ++ "': " ++ Text.ofNat stats.scanned ++
    " files scanned in " ++ Text.ofNat stats.directories ++ " directories, " ++
    Text.ofNat found.length ++ " matched, " ++ Text.ofNat candidates.length ++ " candidates")

/-- How a query is searched for. -/
structure Plan where
  fragment : Text
  anchored : Bool
  /-- The words that have to occur in a candidate's path. -/
  tokens : List Text
deriving DecidableEq, Repr

/-- The plan of a query, unless it asks for nothing; `lead` is what file names start with. -/
def plan (lead : Text) (q : SearchQuery) : Option Plan :=
  match q.path? with
  | some path => if path.isEmpty then none else some ⟨lead ++ path ++ ".", true, []⟩
  | none => q.longestToken.map fun token => ⟨token, false, q.tokens⟩

/-- Scans for a query and keeps the candidates among what was found. Each search resets the
statistics of the searches before. -/
def search (t : FileTree) (before : ScanStats) (kind : Text) (q : SearchQuery) (root : Path)
    (plan : Option Plan) (keep : Plan → List Path → Logged (List Path)) :
    Logged (Counted (Except ScanFailure (List Path))) :=
  let stats := before.reset
  match plan with
  | none => pure ⟨stats, .ok []⟩
  | some plan => do
    let ⟨stats, found⟩ ← Scan.find t stats root plan.fragment plan.anchored
    match found with
    | .error e => return ⟨stats, .error e⟩
    | .ok found =>
      let candidates ← keep plan found
      report kind q stats found candidates
      return ⟨stats, .ok candidates⟩

/-- The files that may hold the function a query asks for, with the statistics of the scan, by a
locator that has counted `before`. -/
def functionsAfter (t : FileTree) (before : ScanStats) (s : InspectorSettings) (q : SearchQuery) :
    Logged (Counted (Except ScanFailure (List Path))) :=
  search t before "Function" q s.rootPath (plan [] q) fun plan found =>
    keepDefinitions t ((functionFiles s found).filter fun p =>
      matchesTokens (relativeText p s.rootPath) plan.tokens)

/-- The same by a new locator. -/
def functions (t : FileTree) (s : InspectorSettings) (q : SearchQuery) :
    Logged (Counted (Except ScanFailure (List Path))) := functionsAfter t .zero s q

/-- The headers of classes that a query may ask for, with the statistics of the scan, by a locator
that has counted `before`. -/
def classesAfter (t : FileTree) (before : ScanStats) (s : InspectorSettings) (q : SearchQuery) :
    Logged (Counted (Except ScanFailure (List Path))) :=
  search t before "Class" q s.classRoot (plan s.classFileLead q) fun plan found =>
    pure (found.filter fun p =>
      p.name.endsWith s.headerExtension && matchesTokens (relativeText p s.classRoot) plan.tokens)

/-- The same by a new locator. -/
def classes (t : FileTree) (s : InspectorSettings) (q : SearchQuery) :
    Logged (Counted (Except ScanFailure (List Path))) := classesAfter t .zero s q

@[simp] theorem functionsAfter_eq (t : FileTree) (before : ScanStats) (s : InspectorSettings)
    (q : SearchQuery) : functionsAfter t before s q = functions t s q := rfl

@[simp] theorem classesAfter_eq (t : FileTree) (before : ScanStats) (s : InspectorSettings)
    (q : SearchQuery) : classesAfter t before s q = classes t s q := rfl

end Locate

end GenScope
