import GenScope.Proofs.Query.Words
import GenScope.Proofs.Search.Candidates
import GenScope.Proofs.Settings.Directory

/-!
# What a search offers

A search gives, once each and in the order of the walk, the files that meet a condition on each file
alone and on the files beside it: a scan finds them (`SearchQuery.Seeks`), the words of the query
stand in their paths (`HasWord`), and they can hold a function or declare a class
(`IsFunctionCandidate`, `IsClassCandidate`). This is so for both forms of a query
(`functions_eq_filter`, `classes_eq_filter`), and for a list of words the condition is spelled out
(`functions_of_words`).
-/

namespace GenScope

/-! ### Words in a path -/

/-- The word stands in the text, and what is next to it there does not continue it. -/
def HasWord (text word : Text) : Prop :=
  ∃ before after, text = before ++ word ++ after ∧
    (∀ c, before.getLast? = some c → continuesWord c = false) ∧
    ∀ c, after.head? = some c → continuesWord c = false

theorem hasWordAfter_none_iff {text word : Text} : hasWordAfter word none text = true ↔ HasWord text word := by
  have hany : ∀ o : Option Char, o.any continuesWord = false ↔ ∀ c, o = some c → continuesWord c = false := by
    intro o; cases o <;> simp
  rw [hasWordAfter_iff]
  simp only [Option.or_none, isWordAt, Bool.and_eq_true, Bool.not_eq_true', hany, Text.startsWith_iff]
  constructor
  · rintro ⟨before, rest, rfl, ⟨⟨after, rfl⟩, hbefore⟩, hafter⟩
    rw [List.drop_left] at hafter
    exact ⟨before, after, (List.append_assoc ..).symm, hbefore, hafter⟩
  · rintro ⟨before, after, rfl, hbefore, hafter⟩
    refine ⟨before, word ++ after, List.append_assoc .., ⟨List.prefix_append .., hbefore⟩, ?_⟩
    rwa [List.drop_left]

theorem matchesTokens_iff {path : Text} {words : List Text} :
    matchesTokens path words = true ↔ ∀ w ∈ words, HasWord (Text.lower path) w := by
  simp only [matchesTokens, List.all_eq_true, hasWordAfter_none_iff]

/-! ### Files beside each other -/

/-- Two files in one directory, whose names differ in that one has the first extension where the other
one has the second extension. -/
def IsBeside (ext ext' : Text) (p q : Path) : Prop :=
  ∃ (dir : Path) (base : Text), p = dir.child (base ++ ext) ∧ q = dir.child (base ++ ext')

namespace Locate

variable {t : FileTree} {s : InspectorSettings} {q : SearchQuery} {p : Path} {names : List Text}
  {paths : List Path}

theorem stem_child {dir : Path} (h : dir.anchor = .top) (base extension : Text) :
    stem (dir.child (base ++ extension)) extension = (dir.child base).toText := by
  obtain ⟨anchor, names⟩ := dir
  obtain rfl : anchor = .top := h
  have hstem : stem ((⟨.top, names⟩ : Path).below ([] ++ [base ++ extension])) extension =
      Path.toText ⟨.top, names ++ [] ++ [base]⟩ := stem_below [] base extension
  simpa [Path.child, Path.below] using hstem

/-- Two files have the same stem if they lie beside each other. -/
theorem stem_eq_stem_iff {src : Path} {ext ext' : Text} (hp : p.IsEntryPath) (hq : src.IsEntryPath)
    (hpe : ext <:+ p.name) (hqe : ext' <:+ src.name) : stem p ext = stem src ext' ↔ IsBeside ext ext' p src := by
  constructor
  · intro heq
    obtain ⟨dir, hdir⟩ := hp.exists_child
    obtain ⟨dir', hdir'⟩ := hq.exists_child
    obtain ⟨base, hbase⟩ := hpe
    obtain ⟨base', hbase'⟩ := hqe
    rw [← hbase] at hdir
    rw [← hbase'] at hdir'
    rw [hdir] at hp
    rw [hdir'] at hq
    rw [hdir, hdir', stem_child hp.anchor_dir, stem_child hq.anchor_dir, hp.of_child.toText_inj hq.of_child,
      Path.child_inj] at heq
    obtain ⟨rfl, rfl⟩ := heq
    exact ⟨dir, base, hdir, hdir'⟩
  · rintro ⟨dir, base, rfl, rfl⟩
    rw [stem_child hp.anchor_dir, stem_child hp.anchor_dir]

/-! ### Files that can hold a function -/

theorem canHoldFunction_iff (hp : p.IsEntryPath) (hpaths : ∀ src ∈ paths, src.IsEntryPath) :
    canHoldFunction s (sourceStems s paths) p = true ↔ s.sourceExtension <:+ p.name ∨
      s.headerExtension <:+ p.name ∧ (∀ src ∈ paths, ¬ IsBeside s.headerExtension s.sourceExtension p src) ∧
        isClassHeader s p = false := by
  by_cases hsource : s.sourceExtension <:+ p.name
  · simp [canHoldFunction_source hsource, hsource]
  · rw [canHoldFunction_header_iff hsource, or_iff_right hsource]
    refine and_congr_right fun hheader => and_congr_left fun _ => forall₂_congr fun src hsrc => ?_
    rw [fileStem_header hsource]
    constructor
    · intro halone hbeside
      have hext : s.sourceExtension <:+ src.name := by
        obtain ⟨dir, base, -, rfl⟩ := hbeside
        simp
      refine halone hext ?_
      rw [fileStem_source hext]
      exact ((stem_eq_stem_iff hp (hpaths src hsrc) hheader hext).2 hbeside).symm
    · intro hbeside hext hstem
      rw [fileStem_source hext] at hstem
      exact hbeside ((stem_eq_stem_iff hp (hpaths src hsrc) hheader hext).1 hstem.symm)

theorem holdsFunction_iff {text : Text} :
    holdsFunction text = true ↔ (' ' :: functionLead) <:+: text ∧ '(' ∈ text := by
  rw [holdsFunction, Bool.and_eq_true, Text.occursIn_iff, List.contains_iff_mem]

/-- The file can be read, and its text passes for that of a definition. -/
def PassesForDefinition (t : FileTree) (p : Path) : Prop :=
  ∃ content, t.read p = .ok content ∧ (' ' :: functionLead) <:+: Utf8.readLossy content ∧
    '(' ∈ Utf8.readLossy content

theorem containsFunction_iff (t : FileTree) (p : Path) :
    (containsFunction t p).value = true ↔ PassesForDefinition t p := by
  unfold PassesForDefinition
  cases hread : t.read p with
  | error fault => simp [containsFunction, hread, bind, Logged.bind, pure, Logged.pure]
  | ok content => simp [containsFunction_value hread, holdsFunction_iff]

/-- The file under these names below the root is one that a search for functions offers; `found` says
what its scan finds. -/
structure IsFunctionCandidate (t : FileTree) (s : InspectorSettings) (found : Path → Prop) (words : List Text)
    (names : List Text) : Prop where
  isFound : found (s.rootPath.below names)
  hasWords : ∀ w ∈ words, HasWord (Text.lower (Text.join "/" names)) w
  /-- A source, or a header that has no source beside it among what is found and declares no class. -/
  kind : s.sourceExtension <:+ (s.rootPath.below names).name ∨
    s.headerExtension <:+ (s.rootPath.below names).name ∧
      (∀ src, found src → ¬ IsBeside s.headerExtension s.sourceExtension (s.rootPath.below names) src) ∧
      ¬ HasClassMark s names
  definition : PassesForDefinition t (s.rootPath.below names)

/-- The file under these names below the class directory is one that a search for classes offers. -/
structure IsClassCandidate (s : InspectorSettings) (found : Path → Prop) (words : List Text)
    (names : List Text) : Prop where
  isFound : found (s.classRoot.below names)
  hasWords : ∀ w ∈ words, HasWord (Text.lower (Text.join "/" names)) w
  kind : s.headerExtension <:+ (s.classRoot.below names).name

end Locate

/-! ### What a scan finds -/

namespace SearchQuery

open Locate (Plan plan)

variable {q : SearchQuery} {lead name : Text} {pl : Plan}

/-- A scan for the query looks for the name: for a qualified query names that start with its file
stem and a dot, for a list of words names that hold the first of the longest words. -/
def Seeks (lead : Text) (q : SearchQuery) (name : Text) : Prop :=
  match q.path? with
  | some path => path ≠ [] ∧ Text.lower (lead ++ path ++ ".") <+: Text.lower name
  | none => ∃ w, IsFirstLongest w q.tokens ∧ w <:+: Text.lower name

/-- The words that have to stand in a candidate's path. -/
def words (q : SearchQuery) : List Text := if q.isFullyQualified then [] else q.tokens

theorem path?_eq_none_iff : q.path? = none ↔ q.isFullyQualified = false := by
  rw [path?]; split <;> simp_all

theorem words_of_path? {path : Text} (h : q.path? = some path) : q.words = [] := by
  have hq : q.isFullyQualified = true := by
    by_contra hq
    simp [path?_eq_none_iff.2 (by simpa using hq)] at h
  rw [words, if_pos hq]

theorem words_of_path?_none (h : q.path? = none) : q.words = q.tokens := by
  rw [words, path?_eq_none_iff.1 h]; rfl

theorem not_seeks_of_plan (h : plan lead q = none) : ¬ q.Seeks lead name := by
  unfold plan at h
  unfold Seeks
  cases hp : q.path? with
  | some path => simp_all
  | none =>
    simp only [hp, Option.map_eq_none_iff] at h
    rintro ⟨w, hw, -⟩
    rw [longestToken, longest_eq_some_iff.2 hw] at h
    cases h

theorem tokens_of_plan (h : plan lead q = some pl) : pl.tokens = q.words := by
  unfold plan at h
  cases hp : q.path? with
  | some path =>
    simp only [hp] at h
    split at h
    · cases h
    · obtain rfl := Option.some.inj h
      exact (words_of_path? hp).symm
  | none =>
    simp only [hp, Option.map_eq_some_iff] at h
    obtain ⟨w, -, rfl⟩ := h
    exact (words_of_path?_none hp).symm

theorem seeks_iff_of_plan (h : plan lead q = some pl) (name : Text) :
    Scan.matchesName (Text.lower pl.fragment) pl.anchored name = true ↔ q.Seeks lead name := by
  unfold plan at h
  unfold Seeks
  cases hp : q.path? with
  | some path =>
    simp only [hp] at h
    split at h
    · cases h
    · rename_i hne
      obtain rfl := Option.some.inj h
      have hne : path ≠ [] := by simpa using hne
      simp [Scan.matchesName, Text.startsWith_iff, hne]
  | none =>
    simp only [hp, Option.map_eq_some_iff] at h
    obtain ⟨w, hlongest, rfl⟩ := h
    have hw : IsFirstLongest w q.tokens := longest_eq_some_iff.1 hlongest
    simp only [Scan.matchesName, Bool.false_eq_true, if_false, Text.occursIn_iff, (mem_tokens hw.mem).2]
    exact (hw.exists_iff (p := fun v => v <:+: Text.lower name)).symm

end SearchQuery

/-- The files below a directory that a scan for the query finds. -/
def FileTree.Finds (t : FileTree) (root : Path) (lead : Text) (q : SearchQuery) (p : Path) : Prop :=
  p ∈ t.filesBelow root ∧ q.Seeks lead p.name

namespace Locate

variable {r : FieldReaders} {t : FileTree} {s : InspectorSettings} {q : SearchQuery} {p root : Path} {names : List Text}
  {lead : Text} {pl : Plan}

open Classical in
theorem matching_eq_filter (h : plan lead q = some pl) (root : Path) :
    Scan.matching (t.walk root) pl.fragment pl.anchored =
      (t.filesBelow root).filter fun p => t.Finds root lead q p := by
  refine List.filter_congr fun p hp => ?_
  rw [Bool.eq_iff_iff, SearchQuery.seeks_iff_of_plan h, decide_eq_true_eq]
  exact (and_iff_right hp).symm

/-! ### Searches -/

variable {v : Value}

theorem isEntryPath_of_mem (hwf : t.WellFormed) (hs : InspectorSettings.ofValue r t v = .ok (.valid s))
    (hp : p ∈ t.filesBelow s.rootPath) :
    ∃ names, names ≠ [] ∧ p = s.rootPath.below names ∧ p.IsEntryPath := by
  obtain ⟨root, hpath, -⟩ := InspectorSettings.isDirectory_rootPath hwf hs
  obtain ⟨names, hne, rfl, hnames⟩ := hwf.exists_below_of_mem hp
  refine ⟨names, hne, rfl, by rw [hpath]; rfl, by simp [Path.below, hne], fun name hname => ?_⟩
  rcases List.mem_append.1 hname with hname | hname
  · exact (Path.isPathName_of_mem_namesOf hname).slash
  · exact (hnames name hname).slash

theorem isFunctionCandidate_iff (hwf : t.WellFormed) (hs : InspectorSettings.ofValue r t v = .ok (.valid s))
    {words : List Text} (hpaths : ∀ p, p ∈ paths ↔ t.Finds s.rootPath [] q p)
    (hp : p ∈ t.filesBelow s.rootPath) :
    (∃ names, p = s.rootPath.below names ∧ IsFunctionCandidate t s (t.Finds s.rootPath [] q) words names) ↔
      p ∈ paths ∧ canHoldFunction s (sourceStems s paths) p = true ∧
        matchesTokens (relativeText p s.rootPath) words = true ∧ (containsFunction t p).value = true := by
  have hentries : ∀ src ∈ paths, src.IsEntryPath := fun src hsrc => by
    obtain ⟨_, _, _, hentry⟩ := isEntryPath_of_mem hwf hs ((hpaths src).1 hsrc).1
    exact hentry
  obtain ⟨names, hne, rfl, hentry⟩ := isEntryPath_of_mem hwf hs hp
  have hclass : isClassHeader s (s.rootPath.below names) = false ↔ ¬ HasClassMark s names := by
    rw [← isClassHeader_below_iff hne, Bool.not_eq_true]
  rw [canHoldFunction_iff hentry hentries, hclass, matchesTokens_iff, containsFunction_iff,
    relativeText_below _ hne, hpaths]
  simp only [hpaths]
  constructor
  · rintro ⟨names', heq, hc⟩
    obtain rfl : names = names' := Path.below_inj.1 heq
    exact ⟨hc.isFound, hc.kind, hc.hasWords, hc.definition⟩
  · rintro ⟨hfound, hkind, hwords, hdef⟩
    exact ⟨names, rfl, hfound, hwords, hkind, hdef⟩

open Classical in
/-- A search for functions keeps the candidates among the files of the tree. -/
theorem functions_eq_filter (hwf : t.WellFormed) (hs : InspectorSettings.ofValue r t v = .ok (.valid s))
    (q : SearchQuery) : (functions t s q).value.result = .ok ((t.filesBelow s.rootPath).filter fun p =>
      ∃ names, p = s.rootPath.below names ∧
        IsFunctionCandidate t s (t.Finds s.rootPath [] q) q.words names) := by
  obtain ⟨-, -, hdir⟩ := InspectorSettings.isDirectory_rootPath hwf hs
  cases hplan : plan [] q with
  | none =>
    have hnone : (t.filesBelow s.rootPath).filter (fun p => ∃ names, p = s.rootPath.below names ∧
        IsFunctionCandidate t s (t.Finds s.rootPath [] q) q.words names) = [] := by
      refine List.filter_eq_nil_iff.2 fun p _ => ?_
      simp only [decide_eq_true_eq, not_exists, not_and]
      exact fun names _ h => SearchQuery.not_seeks_of_plan hplan h.isFound.2
    rw [hnone, functions, functionsAfter, hplan]
    rfl
  | some pl =>
    have hpaths : ∀ p, p ∈ (t.filesBelow s.rootPath).filter (fun p => t.Finds s.rootPath [] q p) ↔
        t.Finds s.rootPath [] q p := fun p => by
      rw [List.mem_filter, decide_eq_true_eq]
      exact ⟨fun h => h.2, fun h => ⟨h.1, h⟩⟩
    have hnodup := (FileTree.nodup_filesBelow t s.rootPath).filter fun p => t.Finds s.rootPath [] q p
    rw [functions_of_plan hdir hplan, keepDefinitions_value, functionFiles, matching_eq_filter hplan,
      eraseDups_of_nodup (hnodup.filter _), List.filter_filter, List.filter_filter, List.filter_filter,
      SearchQuery.tokens_of_plan hplan]
    refine congrArg Except.ok (List.filter_congr fun p hp => ?_)
    rw [Bool.eq_iff_iff, decide_eq_true_eq, isFunctionCandidate_iff hwf hs hpaths hp, List.mem_filter]
    simp only [Bool.and_eq_true, decide_eq_true_eq]
    tauto

theorem classes_of_plan {pl : Plan} (hplan : plan s.classFileLead q = some pl)
    (hdir : t.isDirectory s.classRoot = true) :
    (classes t s q).value.result = .ok ((Scan.matching (t.walk s.classRoot) pl.fragment pl.anchored).filter fun p =>
      p.name.endsWith s.headerExtension && matchesTokens (relativeText p s.classRoot) pl.tokens) := by
  unfold classes classesAfter search
  simp only [hplan, Logged.value_bind_eq, Scan.find_of_isDirectory hdir]
  rfl

theorem classes_of_closed {pl : Plan} (hplan : plan s.classFileLead q = some pl)
    (hclosed : t.stat s.classRoot = .ok .closed) : (classes t s q).value.result = .ok [] := by
  have hdir : t.isDirectory s.classRoot = true := FileTree.isDirectory_iff.2 ⟨.closed, hclosed, rfl⟩
  rw [classes_of_plan hplan hdir, FileTree.walk_of_closed hclosed]
  rfl

theorem classes_of_plan_none (hplan : plan s.classFileLead q = none) : (classes t s q).value.result = .ok [] := by
  rw [classes, classesAfter, hplan]
  rfl

theorem classes_eq_error {pl : Plan} (hplan : plan s.classFileLead q = some pl)
    (hdir : t.isDirectory s.classRoot = false) :
    (classes t s q).value.result = .error (Scan.failureAt t s.classRoot) := by
  unfold classes classesAfter search
  simp only [hplan, Logged.value_bind_eq, Scan.find_of_not_isDirectory hdir]
  rfl

theorem classes_of_not_isDirectory (hdir : t.isDirectory s.classRoot = false) :
    ∃ e, ∀ q, plan s.classFileLead q ≠ none → (classes t s q).value.result = .error e := by
  refine ⟨Scan.failureAt t s.classRoot, fun q hq => ?_⟩
  obtain ⟨pl, hplan⟩ := Option.ne_none_iff_exists'.1 hq
  exact classes_eq_error hplan hdir

open Classical in
theorem classes_eq_filter (hwf : t.WellFormed) (hdir : t.isDirectory s.classRoot = true) (q : SearchQuery) :
    (classes t s q).value.result = .ok ((t.filesBelow s.classRoot).filter fun p =>
      ∃ names, p = s.classRoot.below names ∧
        IsClassCandidate s (t.Finds s.classRoot s.classFileLead q) q.words names) := by
  cases hplan : plan s.classFileLead q with
  | none =>
    have hnone : (t.filesBelow s.classRoot).filter (fun p => ∃ names, p = s.classRoot.below names ∧
        IsClassCandidate s (t.Finds s.classRoot s.classFileLead q) q.words names) = [] := by
      refine List.filter_eq_nil_iff.2 fun p _ => ?_
      simp only [decide_eq_true_eq, not_exists, not_and]
      exact fun names _ h => SearchQuery.not_seeks_of_plan hplan h.isFound.2
    rw [hnone, classes_of_plan_none hplan]
  | some pl =>
    rw [classes_of_plan hplan hdir, matching_eq_filter hplan, List.filter_filter,
      SearchQuery.tokens_of_plan hplan]
    refine congrArg Except.ok (List.filter_congr fun p hp => ?_)
    obtain ⟨names, hne, rfl, -⟩ := hwf.exists_below_of_mem hp
    rw [Bool.eq_iff_iff, relativeText_below _ hne]
    simp only [Bool.and_eq_true, decide_eq_true_eq, Text.endsWith_iff, matchesTokens_iff]
    constructor
    · rintro ⟨⟨hkind, hwords⟩, hfound⟩
      exact ⟨names, rfl, hfound, hwords, hkind⟩
    · rintro ⟨names', heq, hc⟩
      obtain rfl : names = names' := Path.below_inj.1 heq
      exact ⟨⟨hc.kind, hc.hasWords⟩, hc.isFound⟩

/-! ### Members of the results -/

variable {l : List Path}

theorem mem_functions_iff (hwf : t.WellFormed) (hs : InspectorSettings.ofValue r t v = .ok (.valid s))
    (hl : (functions t s q).value.result = .ok l) : p ∈ l ↔ ∃ names, p = s.rootPath.below names ∧
      IsFunctionCandidate t s (t.Finds s.rootPath [] q) q.words names := by
  classical
  obtain rfl := Except.ok.inj (hl.symm.trans (functions_eq_filter hwf hs q))
  rw [List.mem_filter, decide_eq_true_eq]
  refine and_iff_right_of_imp fun h => ?_
  obtain ⟨names, rfl, hc⟩ := h
  exact hc.isFound.1

theorem below_mem_functions_iff (hwf : t.WellFormed) (hs : InspectorSettings.ofValue r t v = .ok (.valid s))
    (hl : (functions t s q).value.result = .ok l) :
    s.rootPath.below names ∈ l ↔ IsFunctionCandidate t s (t.Finds s.rootPath [] q) q.words names := by
  rw [mem_functions_iff hwf hs hl]
  constructor
  · rintro ⟨names', heq, hc⟩
    rwa [Path.below_inj.1 heq]
  · exact fun hc => ⟨names, rfl, hc⟩

theorem mem_classes_iff (hwf : t.WellFormed) (hl : (classes t s q).value.result = .ok l) :
    p ∈ l ↔ ∃ names, p = s.classRoot.below names ∧
      IsClassCandidate s (t.Finds s.classRoot s.classFileLead q) q.words names := by
  classical
  by_cases hdir : t.isDirectory s.classRoot = true
  · obtain rfl := Except.ok.inj (hl.symm.trans (classes_eq_filter hwf hdir q))
    rw [List.mem_filter, decide_eq_true_eq]
    refine and_iff_right_of_imp fun h => ?_
    obtain ⟨names, rfl, hc⟩ := h
    exact hc.isFound.1
  · -- without the class directory only a query that asks for nothing gives a result
    obtain ⟨e, he⟩ := classes_of_not_isDirectory (by simpa using hdir)
    have hplan : plan s.classFileLead q = none := by
      by_contra hplan
      rw [he q hplan] at hl
      cases hl
    obtain rfl : l = [] := Except.ok.inj (hl.symm.trans (classes_of_plan_none hplan))
    refine iff_of_false (by simp) ?_
    rintro ⟨names, -, hc⟩
    exact SearchQuery.not_seeks_of_plan hplan hc.isFound.2

/-- A search for words gives, in the order of the walk and once each, exactly these files: the first
of the longest words stands in the lower-cased name, every word stands as a whole word in the
lower-cased path below the root, the file is a source, or a header without its source among the
files found and not marked as that of a class, and its text passes for that of a definition. -/
theorem functions_of_words (hwf : t.WellFormed) (hs : InspectorSettings.ofValue r t v = .ok (.valid s))
    (hq : q.isFullyQualified = false) (hne : q.tokens ≠ []) :
    ∃ w l, SearchQuery.IsFirstLongest w q.tokens ∧ (functions t s q).value.result = .ok l ∧ l.Nodup ∧
      l.Sublist (t.filesBelow s.rootPath) ∧
      ∀ p, p ∈ l ↔ ∃ names, p = s.rootPath.below names ∧ IsFunctionCandidate t s
        (fun p => p ∈ t.filesBelow s.rootPath ∧ w <:+: Text.lower p.name) q.tokens names := by
  classical
  obtain ⟨w, hw⟩ := SearchQuery.exists_isFirstLongest hne
  have hpath : q.path? = none := SearchQuery.path?_eq_none_iff.2 hq
  have hfinds : t.Finds s.rootPath [] q = fun p => p ∈ t.filesBelow s.rootPath ∧ w <:+: Text.lower p.name := by
    funext p
    rw [FileTree.Finds, SearchQuery.Seeks, hpath]
    exact propext (and_congr_right fun _ => hw.exists_iff)
  have hlist := functions_eq_filter hwf hs q
  refine ⟨w, _, hw, hlist, (FileTree.nodup_filesBelow t _).filter _, List.filter_sublist, fun p => ?_⟩
  rw [← hfinds, ← SearchQuery.words_of_path?_none hpath]
  exact mem_functions_iff hwf hs hlist

/-- A word at its second place in a name, a header beside its source, a marked header, and a longer
word that starts like the one that is asked for. -/
theorem functions_of_words_post :
    let t : FileTree := ⟨[(["r"], .directory), (["r", "cl"], .directory),
      (["r", "cl", "C@post.h"], .file (Utf8.encode "int f$a()")), (["r", "post.cpp"], .file (Utf8.encode "int f$a()")),
      (["r", "post.h"], .file (Utf8.encode "int f$a()")), (["r", "postpone.cpp"], .file (Utf8.encode "int f$a()")),
      (["r", "repost-post.h"], .file (Utf8.encode "int f$a()"))], by decide +kernel, [], [], []⟩
    let s : InspectorSettings := ⟨"/r", "cl", "C@", ".cpp", ".h", false⟩
    let q := SearchQuery.ofText "Post"
    (t.WellFormed ∧ InspectorSettings.ofValue .lax t (.object [(some ("root" : Text), .text "/r")]) = .ok (.valid s) ∧
      q.isFullyQualified = false ∧ q.tokens ≠ []) ∧
    (functions t s q).value.result = .ok [.ofText "/r/post.cpp", .ofText "/r/repost-post.h"] ∧
    ∀ p : Path, p ∈ [Path.ofText "/r/post.cpp", .ofText "/r/repost-post.h"] ↔
      ∃ names, p = s.rootPath.below names ∧ IsFunctionCandidate t s
        (fun p => p ∈ t.filesBelow s.rootPath ∧ ("post" : Text) <:+: Text.lower p.name) ["post"] names := by
  intro t s q
  have hwf : t.WellFormed := .of_entries (by decide +kernel)
  have hs : InspectorSettings.ofValue .lax t (.object [(some ("root" : Text), .text "/r")]) = .ok (.valid s) := by rfl
  have htokens : q.tokens = ["post"] := by decide +kernel
  have hq : q.isFullyQualified = false := by decide +kernel
  obtain ⟨w, l, hw, hl, -, -, hmem⟩ := functions_of_words hwf hs hq (by simp [htokens])
  have hlist : (functions t s q).value.result = .ok [.ofText "/r/post.cpp", .ofText "/r/repost-post.h"] := by
    decide +kernel
  obtain rfl := Except.ok.inj (hl.symm.trans hlist)
  rw [htokens] at hmem hw
  obtain rfl : w = "post" := by simpa using hw.mem
  exact ⟨⟨hwf, hs, hq, by simp [htokens]⟩, hlist, hmem⟩

end Locate

end GenScope
