import GenScope.Proofs.FileTree.Walk
import GenScope.Search.Locate
import Mathlib.Data.Set.Card

/-!
# What the counters of scans say

A walk visits each directory at or below its root once, and each file in them (`ncard_visitedDirectories`,
`ncard_visitedFiles`). Every call of a scanner adds the visits of a scan that succeeds, forgets what was
before, or does both (`isTally_afterCall`), so that after any calls the counters are the totals over the
scans since the last reset, and after a query those of its own scan (`counters_exact`).
-/

namespace GenScope

namespace FileTree

variable {t : FileTree} {loc : Location} {names : List Text} {root : Path}

/-! ### What a walk visits -/

/-- The directories at and below the one that a path leads to, if they may be entered. -/
def visitedDirectories (t : FileTree) (root : Path) : Set Location :=
  {loc | ∃ base, t.follow root = .ok base ∧ t.get? base = some .directory ∧ base <+: loc ∧
    t.get? loc = some .directory}

/-- There is a file, or a link that does not lead to a directory. -/
def PassesForFile (t : FileTree) (loc : Location) : Prop :=
  (∃ e, t.get? loc = some e ∧ e.isFile = true) ∨
    ∃ target, t.get? loc = some (.link target) ∧ t.isDirectory ⟨.top, loc⟩ = false

/-- What passes for a file in these directories. -/
def visitedFiles (t : FileTree) (root : Path) : Set Location :=
  {loc | ∃ dir ∈ t.visitedDirectories root, ∃ name, loc = dir ++ [name] ∧ t.PassesForFile loc}

theorem passesForFile_iff :
    t.PassesForFile loc ↔ ∃ e, t.get? loc = some e ∧ t.listsAsFile (loc, e) = true := by
  unfold PassesForFile
  cases t.get? loc with
  | none => simp
  | some e => cases e <;> simp [listsAsFile, Entry.isFile]

theorem mem_visitedDirectories (hf : t.follow root = .ok loc) (hdir : t.get? loc = some .directory)
    (there : Location) :
    there ∈ t.visitedDirectories root ↔ there ∈ (t.directoriesBelow loc).map (loc ++ ·) := by
  rw [List.mem_map]
  constructor
  · rintro ⟨base, hbase, -, ⟨names, rfl⟩, hget⟩
    obtain rfl : loc = base := Except.ok.inj (hf.symm.trans hbase)
    exact ⟨names, (mem_directoriesBelow hdir).2 hget, rfl⟩
  · rintro ⟨names, hnames, rfl⟩
    exact ⟨loc, hf, hdir, List.prefix_append _ _, (mem_directoriesBelow hdir).1 hnames⟩

theorem mem_visitedFiles (hf : t.follow root = .ok loc) (hdir : t.get? loc = some .directory)
    (there : Location) : there ∈ t.visitedFiles root ↔ there ∈ (t.namesBelow loc).map (loc ++ ·) := by
  simp only [visitedFiles, Set.mem_ofPred_eq, mem_visitedDirectories hf hdir, namesBelow, List.mem_map,
    List.mem_flatMap, mem_filesIn_iff, ← passesForFile_iff]
  constructor
  · rintro ⟨_, ⟨dir, hmem, rfl⟩, name, rfl, hfile⟩
    exact ⟨dir ++ [name], ⟨dir, hmem, name, hfile, rfl⟩, by simp⟩
  · rintro ⟨_, ⟨dir, hmem, name, hfile, rfl⟩, rfl⟩
    exact ⟨loc ++ dir, ⟨dir, hmem, rfl⟩, name, by simp, by simpa using hfile⟩

theorem ncard_eq_length {visited : Set Location} {below : List (List Text)} (hnodup : below.Nodup)
    (h : ∀ there, there ∈ visited ↔ there ∈ below.map (loc ++ ·)) : visited.ncard = below.length := by
  have hcoe : visited = ((below.map (loc ++ ·)).toFinset : Set Location) := by
    ext there
    rw [h, Finset.mem_coe, List.mem_toFinset]
  rw [hcoe, Set.ncard_coe_finset,
    List.toFinset_card_of_nodup (hnodup.map fun _ _ => List.append_cancel_left), List.length_map]

theorem visitedDirectories_eq_empty (h : ¬ ∃ loc, t.follow root = .ok loc ∧ t.get? loc = some .directory) :
    t.visitedDirectories root = ∅ := by
  refine Set.eq_empty_of_forall_notMem ?_
  rintro there ⟨base, hf, hdir, -⟩
  exact h ⟨base, hf, hdir⟩

theorem ncard_visitedDirectories (t : FileTree) (root : Path) :
    (t.visitedDirectories root).ncard = (t.walk root).length := by
  by_cases h : ∃ loc, t.follow root = .ok loc ∧ t.get? loc = some .directory
  · obtain ⟨loc, hf, hdir⟩ := h
    rw [ncard_eq_length (t.nodup_directoriesBelow loc) (mem_visitedDirectories hf hdir), walk_eq hf hdir,
      List.length_map]
  · rw [visitedDirectories_eq_empty h, Set.ncard_empty, walk_eq_nil h, List.length_nil]

theorem ncard_visitedFiles (t : FileTree) (root : Path) :
    (t.visitedFiles root).ncard = (t.filesBelow root).length := by
  by_cases h : ∃ loc, t.follow root = .ok loc ∧ t.get? loc = some .directory
  · obtain ⟨loc, hf, hdir⟩ := h
    have hnodup : (t.namesBelow loc).Nodup := by
      have hfiles := t.nodup_filesBelow root
      rw [filesBelow_eq_map hf hdir] at hfiles
      exact hfiles.of_map
    rw [ncard_eq_length hnodup (mem_visitedFiles hf hdir), filesBelow_eq_map hf hdir, List.length_map]
  · have hempty : t.visitedFiles root = ∅ := by simp [visitedFiles, visitedDirectories_eq_empty h]
    rw [hempty, Set.ncard_empty, filesBelow, walk_eq_nil h]
    rfl

end FileTree

namespace Scan

/-! ### Scans -/

/-- What a scan is asked for, and the tree that it finds. -/
structure Request where
  tree : FileTree
  root : Path
  fragment : Text
  anchored : Bool

namespace Request

/-- The scan, on top of the statistics so far. -/
def run (r : Request) (stats : ScanStats) : Counted (Except ScanFailure (List Path)) :=
  (find r.tree stats r.root r.fragment r.anchored).value

/-- What the scan finds, unless it fails. -/
def found? (r : Request) : Option (List Path) := (r.run .zero).result.toOption

/-- The scan with what it finds, unless it fails. -/
def success? (r : Request) : Option (Request × List Path) := r.found?.map fun found => (r, found)

end Request

variable {r : Request} {stats : ScanStats} {found : List Path} {scans : List (Request × List Path)}

/-- Every outcome of a scan: it fails and leaves the statistics as they are, or it finds what matches among
what it walks and adds that up. -/
theorem Request.run_cases (r : Request) :
    (r.found? = none ∧ ∃ e, ∀ stats, r.run stats = ⟨stats, .error e⟩) ∨
    ∃ found, r.found? = some found ∧ found = matching (r.tree.walk r.root) r.fragment r.anchored ∧
      ∀ stats, r.run stats = ⟨stats.add (statsOf (r.tree.walk r.root) found), .ok found⟩ := by
  cases hdir : r.tree.isDirectory r.root with
  | false =>
    refine .inl ⟨?_, _, fun stats => find_of_not_isDirectory hdir⟩
    rw [found?, run, find_of_not_isDirectory hdir]
    rfl
  | true =>
    refine .inr ⟨_, ?_, rfl, fun stats => find_of_isDirectory hdir⟩
    rw [found?, run, find_of_isDirectory hdir]
    rfl

theorem Request.run_eq_ok_iff : (r.run stats).result = .ok found ↔ r.found? = some found := by
  obtain ⟨hnone, e, he⟩ | ⟨l, hl, -, hrun⟩ := r.run_cases
  · rw [he, hnone]
    simp
  · rw [hrun, hl]
    simp

theorem Request.stats_of_error {e : ScanFailure} (h : (r.run stats).result = .error e) :
    (r.run stats).stats = stats := by
  obtain ⟨-, e, he⟩ | ⟨l, -, -, hrun⟩ := r.run_cases
  · rw [he]
  · rw [hrun] at h
    cases h

theorem matching_sublist (t : FileTree) (root : Path) (fragment : Text) (anchored : Bool) :
    (matching (t.walk root) fragment anchored).Sublist (t.filesBelow root) := List.filter_sublist

theorem Request.nodup_of_found? (h : r.found? = some found) : found.Nodup := by
  obtain ⟨hnone, -⟩ | ⟨l, hl, rfl, -⟩ := r.run_cases
  · rw [hnone] at h
    cases h
  · rw [hl] at h
    cases h
    exact (r.tree.nodup_filesBelow r.root).sublist (matching_sublist ..)

/-! ### Totals -/

/-- The counters are the totals over some scans that succeeded, each given with what it found. -/
structure IsTally (stats : ScanStats) (scans : List (Request × List Path)) : Prop where
  found : ∀ x ∈ scans, x.1.found? = some x.2
  matched : stats.matched = (scans.map fun x => x.2.length).sum
  scanned : stats.scanned = (scans.map fun x => (x.1.tree.visitedFiles x.1.root).ncard).sum
  directories : stats.directories = (scans.map fun x => (x.1.tree.visitedDirectories x.1.root).ncard).sum

theorem isTally_zero : IsTally .zero [] := ⟨by simp, rfl, rfl, rfl⟩

/-- A scan counts if it succeeds. -/
theorem IsTally.run (h : IsTally stats scans) (r : Request) :
    IsTally (r.run stats).stats (scans ++ r.success?.toList) := by
  obtain ⟨hnone, e, he⟩ | ⟨l, hl, -, hrun⟩ := r.run_cases
  · rw [he, Request.success?, hnone]
    simpa using h
  · rw [hrun, Request.success?, hl]
    have hfiles := FileTree.ncard_visitedFiles r.tree r.root
    have hdirs := FileTree.ncard_visitedDirectories r.tree r.root
    constructor
    · intro x hx
      rcases List.mem_append.1 hx with hx | hx
      · exact h.found x hx
      · obtain rfl : x = (r, l) := by simpa using hx
        exact hl
    · simp [ScanStats.add, statsOf, h.matched]
    · simp [ScanStats.add, statsOf, h.scanned, hfiles, FileTree.filesBelow]
    · simp [ScanStats.add, statsOf, h.directories, hdirs]

theorem Request.length_le_of_found? (h : r.found? = some found) :
    found.length ≤ (r.tree.visitedFiles r.root).ncard := by
  obtain ⟨hnone, -⟩ | ⟨l, hl, rfl, -⟩ := r.run_cases
  · rw [hnone] at h
    cases h
  · rw [hl] at h
    cases h
    rw [FileTree.ncard_visitedFiles]
    exact (matching_sublist ..).length_le

theorem IsTally.matched_le_scanned (h : IsTally stats scans) : stats.matched ≤ stats.scanned := by
  rw [h.matched, h.scanned]
  exact List.sum_le_sum fun x hx => Request.length_le_of_found? (h.found x hx)

/-! ### Queries -/

/-- The scan of a directory that a plan stands for. -/
def Request.ofPlan (t : FileTree) (root : Path) (plan : Locate.Plan) : Request :=
  ⟨t, root, plan.fragment, plan.anchored⟩

/-- The scan that a query for a function makes, unless it asks for nothing. -/
def functionScan? (t : FileTree) (s : InspectorSettings) (q : SearchQuery) : Option Request :=
  (Locate.plan [] q).map (Request.ofPlan t s.rootPath)

/-- The scan that a query for a class makes, unless it asks for nothing. -/
def classScan? (t : FileTree) (s : InspectorSettings) (q : SearchQuery) : Option Request :=
  (Locate.plan s.classFileLead q).map (Request.ofPlan t s.classRoot)

/-- The counters tell of a single scan that succeeded, or are all zero if there was none. -/
def TellsOf (stats : ScanStats) : Option Request → Prop
  | none => stats = .zero
  | some r => ∃ found, r.found? = some found ∧ IsTally stats [(r, found)]

section Query

variable {t : FileTree} {kind : Text} {q : SearchQuery} {root : Path} {pl : Locate.Plan}
  {plan : Option Locate.Plan} {keep : Locate.Plan → List Path → Logged (List Path)} {l : List Path}

theorem search_some (before : ScanStats) :
    (Locate.search t before kind q root (some pl) keep).value.stats = ((Request.ofPlan t root pl).run .zero).stats ∧
      ((Locate.search t before kind q root (some pl) keep).value.result = .ok l →
        ∃ found, ((Request.ofPlan t root pl).run .zero).result = .ok found) := by
  unfold Locate.search Request.run
  dsimp only [ScanStats.reset, Request.ofPlan]
  rw [Logged.value_bind_eq]
  rcases (find t .zero root pl.fragment pl.anchored).value with ⟨stats, _ | found⟩
  · exact ⟨rfl, fun h => by cases h⟩
  · exact ⟨rfl, fun _ => ⟨found, rfl⟩⟩

theorem isTally_search (before : ScanStats) :
    IsTally (Locate.search t before kind q root plan keep).value.stats
      ((plan.map (Request.ofPlan t root)).bind Request.success?).toList := by
  cases plan with
  | none => exact isTally_zero
  | some pl =>
    rw [(search_some (l := []) before).1]
    exact isTally_zero.run _

theorem tellsOf_search (before : ScanStats)
    (h : (Locate.search t before kind q root plan keep).value.result = .ok l) :
    TellsOf (Locate.search t before kind q root plan keep).value.stats
      (plan.map (Request.ofPlan t root)) := by
  have htally : IsTally (Locate.search t before kind q root plan keep).value.stats _ := isTally_search before
  cases plan with
  | none => rfl
  | some pl =>
    obtain ⟨found, hfound⟩ := (search_some before).2 h
    have hfound := Request.run_eq_ok_iff.1 hfound
    refine ⟨found, hfound, ?_⟩
    simpa [Request.success?, hfound] using htally

end Query

/-! ### Histories -/

/-- What a scanner and the locator that uses it are called for, with the tree at that time. -/
inductive Call
  | find (r : Request)
  | reset
  | functions (t : FileTree) (s : InspectorSettings) (q : SearchQuery)
  | classes (t : FileTree) (s : InspectorSettings) (q : SearchQuery)

/-- The counters after a call. -/
def afterCall (stats : ScanStats) : Call → ScanStats
  | .find r => (r.run stats).stats
  | .reset => stats.reset
  | .functions t s q => (Locate.functionsAfter t stats s q).value.stats
  | .classes t s q => (Locate.classesAfter t stats s q).value.stats

/-- The scans that succeeded since the last reset, after a call; a query resets before it scans. -/
def scansAfter (scans : List (Request × List Path)) : Call → List (Request × List Path)
  | .find r => scans ++ r.success?.toList
  | .reset => []
  | .functions t s q => ((functionScan? t s q).bind Request.success?).toList
  | .classes t s q => ((classScan? t s q).bind Request.success?).toList

theorem isTally_afterCall (h : IsTally stats scans) (call : Call) :
    IsTally (afterCall stats call) (scansAfter scans call) := by
  cases call with
  | find r => exact h.run r
  | reset => exact isTally_zero
  | functions t s q => exact isTally_search stats
  | classes t s q => exact isTally_search stats

theorem isTally_after (calls : List Call) (h : IsTally stats scans) :
    IsTally (calls.foldl afterCall stats) (calls.foldl scansAfter scans) := by
  induction calls generalizing stats scans with
  | nil => exact h
  | cons call calls ih => exact ih (isTally_afterCall h call)

/-- After any calls of a new scanner its counters are the totals over the scans that succeeded since the last
reset. Whatever comes next, a scan that fails changes nothing, one that succeeds gives each file once, and a
query that returns leaves the counters of its own scan alone. -/
theorem counters_exact (calls : List Call) :
    let stats := calls.foldl afterCall .zero
    IsTally stats (calls.foldl scansAfter []) ∧ stats.matched ≤ stats.scanned ∧
    (∀ r : Request,
      (∀ e, (r.run stats).result = .error e → (r.run stats).stats = stats) ∧
      ∀ found, (r.run stats).result = .ok found → r.found? = some found ∧ found.Nodup) ∧
    ∀ t s q l,
      ((Locate.functionsAfter t stats s q).value.result = .ok l →
        TellsOf (Locate.functionsAfter t stats s q).value.stats (functionScan? t s q)) ∧
      ((Locate.classesAfter t stats s q).value.result = .ok l →
        TellsOf (Locate.classesAfter t stats s q).value.stats (classScan? t s q)) := by
  intro stats
  have htally : IsTally stats (calls.foldl scansAfter []) := isTally_after calls isTally_zero
  refine ⟨htally, htally.matched_le_scanned, fun r => ⟨fun e => Request.stats_of_error, fun found h => ?_⟩,
    fun t s q l => ⟨tellsOf_search stats, tellsOf_search stats⟩⟩
  have hfound := Request.run_eq_ok_iff.1 h
  exact ⟨hfound, Request.nodup_of_found? hfound⟩

/-- Of two scans that find something and two that fail, with a reset before the second one, that one alone
counts. -/
theorem counters_exact_found :
    let t : FileTree := ⟨[(["out"], .directory), (["out", "Post.cpp"], .file []), (["out", "a.h"], .locked)],
      by decide +kernel, [], [], []⟩
    let find : Request := ⟨t, .ofText "/out", "post", false⟩
    let gone : Request := ⟨t, .ofText "/gone", [], false⟩
    let stats := [Call.find find, .find gone, .reset, .find find, .find gone].foldl afterCall .zero
    find.found? = some [.ofText "/out/Post.cpp"] ∧ stats = ⟨1, 2, 1⟩ ∧
      IsTally stats [(find, [.ofText "/out/Post.cpp"])] := by
  intro t find gone stats
  have hfind : find.found? = some [.ofText "/out/Post.cpp"] := by decide +kernel
  have hgone : gone.found? = none := by decide +kernel
  obtain ⟨htally, -⟩ := counters_exact [.find find, .find gone, .reset, .find find, .find gone]
  have hscans : [Call.find find, .find gone, .reset, .find find, .find gone].foldl scansAfter [] =
      [(find, [.ofText "/out/Post.cpp"])] := by
    simp [scansAfter, Request.success?, hfind, hgone]
  exact ⟨hfind, by decide +kernel, hscans ▸ htally⟩

end Scan

end GenScope
