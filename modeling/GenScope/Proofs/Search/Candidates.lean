import GenScope.Proofs.FileTree.Walk
import GenScope.Proofs.Text.Join
import GenScope.Search.Locate

/-!
# Candidates of a qualified query

What the steps of a search do to the files of a walk. A query that stands for a file stem scans for
the names that start with it (`functions_eq`). A header is that of a class if the names on its way spell
the class directory in front of a class file (`hasClassMark_iff`), so not if it is in no class directory
(`not_isClassHeader`). A header that is no source can hold a function if no source has its stem and it is
not that of a class (`canHoldFunction_header_iff`). If a single file among those found can hold a function
it is the only candidate (`functionFiles_eq_singleton`).
-/

namespace GenScope.Locate

/-- The naming settings are those that the generator uses unless told otherwise. -/
structure DefaultNames (s : InspectorSettings) : Prop where
  subdir : s.classSubdir = "cl"
  lead : s.classFileLead = "C@"
  source : s.sourceExtension = ".cpp"
  header : s.headerExtension = ".h"

variable {t : FileTree} {s : InspectorSettings} {q : SearchQuery} {root names : List Text} {name : Text}
  {p : Path} {paths : List Path}

/-! ### Scanning -/

theorem mem_matching_anchored {visits : List FileTree.Visit} {lead : Text} :
    p ∈ Scan.matching visits lead true ↔
      p ∈ visits.flatMap FileTree.Visit.paths ∧ Text.lower lead <+: Text.lower p.name := by
  simp [Scan.matching, Scan.matchesName, Text.startsWith_iff]

theorem keepDefinitions_value (t : FileTree) (paths : List Path) :
    (keepDefinitions t paths).value = paths.filter fun p => (containsFunction t p).value := by
  induction paths with
  | nil => rfl
  | cons p paths ih =>
    show (if (containsFunction t p).value then p :: (keepDefinitions t paths).value
      else (keepDefinitions t paths).value) = _
    rw [ih, List.filter_cons]

theorem containsFunction_value {content : Bytes} (h : t.read p = .ok content) :
    (containsFunction t p).value = holdsFunction (Utf8.readLossy content) := by
  rw [containsFunction, h]
  rfl

theorem functions_of_plan {pl : Plan} (hroot : t.isDirectory s.rootPath = true)
    (hplan : plan [] q = some pl) :
    (functions t s q).value.result = .ok ((keepDefinitions t ((functionFiles s
      (Scan.matching (t.walk s.rootPath) pl.fragment pl.anchored)).filter fun p =>
        matchesTokens (relativeText p s.rootPath) pl.tokens)).value) := by
  unfold functions functionsAfter search
  simp only [hplan, Logged.value_bind_eq, Scan.find_of_isDirectory hroot]
  rfl

/-- A qualified query keeps the definitions among the function files that its scan finds. -/
theorem functions_eq {stem : Text} (hroot : t.isDirectory s.rootPath = true)
    (hq : q.path? = some stem) (hne : stem ≠ []) :
    (functions t s q).value.result = .ok ((keepDefinitions t (functionFiles s
      (Scan.matching (t.walk s.rootPath) (stem ++ ".") true))).value) := by
  have hplan : plan [] q = some ⟨stem ++ ".", true, []⟩ := by
    simp [plan, hq, hne]
  have hall : ∀ p, matchesTokens (relativeText p s.rootPath) [] = true := fun p => by simp [matchesTokens]
  rw [functions_of_plan hroot hplan]
  simp only [hall, List.filter_true]

/-! ### Class headers -/

theorem relativeText_below (p : Path) (hne : names ≠ []) :
    relativeText (p.below names) p = Text.join "/" names := by
  rw [relativeText, Path.relativeTo?_below]
  cases names with
  | nil => exact absurd rfl hne
  | cons name names => rfl

/-- The path below the root is that of a class header: it starts with the mark of class headers, or
holds it behind a slash. -/
def HasClassMark (s : InspectorSettings) (names : List Text) : Prop :=
  s.classMarker <+: Text.join "/" names ∨ ('/' :: s.classMarker) <:+: Text.join "/" names

theorem isClassHeader_below_iff (hne : names ≠ []) :
    isClassHeader s (s.rootPath.below names) = true ↔ HasClassMark s names := by
  rw [isClassHeader, relativeText_below _ hne, Bool.or_eq_true, Text.startsWith_iff, Text.occursIn_iff,
    HasClassMark]

/-- On the way of the names, some of them spell the class directory, and the next one starts as the files of
classes do. -/
def SpellsClassFile (s : InspectorSettings) (names : List Text) : Prop :=
  ∃ before dirs next after, names = before ++ (dirs ++ next :: after) ∧ dirs ≠ [] ∧
    s.classSubdir = Text.join "/" dirs ∧ s.classFileLead <+: next

theorem hasClassMark_iff (hne : names ≠ []) (hslash : ∀ name ∈ names, '/' ∉ name) (hlead : '/' ∉ s.classFileLead) :
    HasClassMark s names ↔ SpellsClassFile s names := by
  have hmarker : s.classMarker = s.classSubdir ++ '/' :: s.classFileLead := by
    simp [InspectorSettings.classMarker]
  refine (Text.stands_in_join_iff hne hslash).trans ?_
  rw [hmarker]
  constructor
  · rintro ⟨before, v, hnames⟩
    obtain ⟨w, after, hnext⟩ := Text.split_append_of_not_mem hlead v
    rw [List.append_assoc, List.cons_append, Text.split_append_cons (by simp), hnext] at hnames
    exact ⟨before, _, _, after, hnames, Text.split_ne_nil _ _, (Text.join_split '/' _).symm, List.prefix_append ..⟩
  · rintro ⟨before, dirs, next, after, rfl, hdirs, hsubdir, ⟨w, rfl⟩⟩
    refine ⟨before, w ++ after.flatMap ('/' :: ·), congrArg _ ?_⟩
    have hjoin : Text.join ['/'] (dirs ++ (s.classFileLead ++ w) :: after) =
        s.classSubdir ++ '/' :: s.classFileLead ++ (w ++ after.flatMap ('/' :: ·)) := by
      rw [Text.join_append '/' hdirs (by simp), Text.join_cons, hsubdir]
      simp
    rw [← hjoin, Text.split_join (by simp) fun name hname => hslash name (List.mem_append_right _ hname)]

theorem not_isClassHeader (hs : DefaultNames s) (hslash : ∀ name ∈ names, '/' ∉ name) (hne : names ≠ [])
    (hcl : ("cl" : Text) ∉ names.dropLast) : isClassHeader s (s.rootPath.below names) = false := by
  rw [Bool.eq_false_iff, Ne, isClassHeader_below_iff hne, hasClassMark_iff hne hslash (by rw [hs.lead]; decide)]
  rintro ⟨before, dirs, next, after, rfl, hdirs, hsubdir, -⟩
  have hjoin : Text.join ['/'] dirs = "cl" := hsubdir.symm.trans hs.subdir
  have hcut : dirs = ["cl"] := by
    rw [← Text.split_join hdirs fun name hname => hslash name (by simp [hname]), hjoin]
    rfl
  rw [hcut, List.dropLast_append_of_ne_nil (by simp), List.dropLast_append_of_ne_nil (by simp)] at hcl
  exact hcl (by simp)

theorem isClassHeader_of_isPrefix (hs : DefaultNames s) (hname : "C@" <+: name) :
    isClassHeader s (s.rootPath.below ["cl", name]) = true := by
  have hmarker : s.classMarker = "cl/C@" := by
    rw [InspectorSettings.classMarker, hs.subdir, hs.lead]; rfl
  obtain ⟨rest, rfl⟩ := hname
  have hrel : relativeText (s.rootPath.below ["cl", "C@" ++ rest]) s.rootPath = "cl/C@" ++ rest := by
    rw [relativeText_below _ (by simp), Text.join_cons_cons, Text.join_singleton]; rfl
  rw [isClassHeader, hrel, hmarker, Text.startsWith_iff.2 (List.prefix_append ..)]
  rfl

/-! ### Extensions -/

theorem not_source_of_header (h : (".h" : Text) <:+ name) : ¬ (".cpp" : Text) <:+ name := fun hs =>
  absurd (List.suffix_of_suffix_length_le h hs (by decide)) (by decide)

theorem DefaultNames.not_source (hs : DefaultNames s) (h : (".h" : Text) <:+ name) : ¬ s.sourceExtension <:+ name := by
  rw [hs.source]
  exact not_source_of_header h

/-! ### Stems -/

/-- The path of a file without its extension does not depend on the extension. -/
theorem stem_below (names : List Text) (name extension : Text) :
    stem ((⟨.top, root⟩ : Path).below (names ++ [name ++ extension])) extension =
      Path.toText ⟨.top, root ++ names ++ [name]⟩ := by
  have htext : ∀ d : Text, Path.toText ⟨.top, root ++ names ++ [d]⟩ =
      '/' :: Text.join "/" (root ++ names ++ [d]) := fun d => by simp [Path.toText, Path.Anchor.written]
  have hbelow : ((⟨.top, root⟩ : Path).below (names ++ [name ++ extension])) =
      ⟨.top, root ++ names ++ [name ++ extension]⟩ := by simp [Path.below]
  have hlen : ∀ d e : Text, (d ++ e).take ((d ++ e).length - e.length) = d := fun d e => by simp
  rw [stem, hbelow, htext, htext, Text.join_append_append, ← List.cons_append, hlen]

/-- A path without its source extension, or else without its header extension. -/
def fileStem (s : InspectorSettings) (p : Path) : Text :=
  if p.name.endsWith s.sourceExtension then stem p s.sourceExtension else stem p s.headerExtension

theorem fileStem_source (h : s.sourceExtension <:+ p.name) : fileStem s p = stem p s.sourceExtension := by
  rw [fileStem, if_pos (Text.endsWith_iff.2 h)]

theorem fileStem_header (h : ¬ s.sourceExtension <:+ p.name) : fileStem s p = stem p s.headerExtension := by
  rw [fileStem, if_neg (mt Text.endsWith_iff.1 h)]

theorem mem_sourceStems {x : Text} :
    x ∈ sourceStems s paths ↔ ∃ src ∈ paths, s.sourceExtension <:+ src.name ∧ fileStem s src = x := by
  simp only [sourceStems, List.mem_map, List.mem_filter, Text.endsWith_iff]
  constructor
  · rintro ⟨src, ⟨hmem, hsource⟩, rfl⟩
    exact ⟨src, hmem, hsource, fileStem_source hsource⟩
  · rintro ⟨src, hmem, hsource, rfl⟩
    exact ⟨src, ⟨hmem, hsource⟩, (fileStem_source hsource).symm⟩

/-! ### Which files can hold a function -/

theorem canHoldFunction_source {stems : List Text} (h : s.sourceExtension <:+ p.name) :
    canHoldFunction s stems p = true := by
  rw [canHoldFunction, if_pos (Text.endsWith_iff.2 h)]

theorem canHoldFunction_header_iff (h : ¬ s.sourceExtension <:+ p.name) :
    canHoldFunction s (sourceStems s paths) p = true ↔ s.headerExtension <:+ p.name ∧
      (∀ src ∈ paths, s.sourceExtension <:+ src.name → fileStem s src ≠ fileStem s p) ∧
      isClassHeader s p = false := by
  rw [canHoldFunction, if_neg (mt Text.endsWith_iff.1 h)]
  have hstems : (sourceStems s paths).contains (stem p s.headerExtension) = false ↔
      ∀ src ∈ paths, s.sourceExtension <:+ src.name → fileStem s src ≠ fileStem s p := by
    rw [← Bool.not_eq_true, List.contains_iff_mem, mem_sourceStems, fileStem_header h]
    push Not
    rfl
  rw [← hstems, ← Text.endsWith_iff]
  split <;> simp_all

/-! ### Once each -/

theorem eraseDups_sublist : ∀ paths : List Path, paths.eraseDups.Sublist paths
  | [] => List.Sublist.slnil
  | p :: paths => by
    rw [List.eraseDups_cons]
    exact ((eraseDups_sublist _).trans List.filter_sublist).cons_cons p
termination_by paths => paths.length
decreasing_by exact Nat.lt_succ_of_le (List.length_filter_le _ _)

theorem nodup_eraseDups : ∀ paths : List Path, paths.eraseDups.Nodup
  | [] => List.nodup_nil
  | p :: paths => by
    rw [List.eraseDups_cons, List.nodup_cons]
    refine ⟨fun hp => ?_, nodup_eraseDups _⟩
    simpa using (List.mem_filter.1 (List.mem_eraseDups.1 hp)).2
termination_by paths => paths.length
decreasing_by exact Nat.lt_succ_of_le (List.length_filter_le _ _)

theorem eraseDups_of_nodup (h : paths.Nodup) : paths.eraseDups = paths := by
  refine (eraseDups_sublist paths).eq_of_length_le ?_
  exact (List.subperm_of_subset h fun p hp => List.mem_eraseDups.2 hp).length_le

theorem eraseDups_eq_singleton (hmem : p ∈ paths) (h : ∀ q ∈ paths, q = p) : paths.eraseDups = [p] := by
  cases paths with
  | nil => simp at hmem
  | cons q paths =>
    obtain rfl : q = p := h q (by simp)
    have hrest : paths.filter (fun r => !r == q) = [] :=
      List.filter_eq_nil_iff.2 fun r hr => by simp [h r (by simp [hr])]
    rw [List.eraseDups_cons, hrest]
    rfl

/-! ### Function files -/

theorem mem_functionFiles_iff :
    p ∈ functionFiles s paths ↔ p ∈ paths ∧ canHoldFunction s (sourceStems s paths) p = true := by
  rw [functionFiles, List.mem_eraseDups, List.mem_filter]

theorem functionFiles_eq_singleton (hmem : p ∈ paths) (hp : canHoldFunction s (sourceStems s paths) p = true)
    (h : ∀ q ∈ paths, canHoldFunction s (sourceStems s paths) q = true → q = p) :
    functionFiles s paths = [p] := by
  refine eraseDups_eq_singleton (List.mem_filter.2 ⟨hmem, hp⟩) fun q hq => ?_
  obtain ⟨hq, hhold⟩ := List.mem_filter.1 hq
  exact h q hq hhold

end GenScope.Locate
