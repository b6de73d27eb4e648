import GenScope.Proofs.Comparison.Apart

/-!
# The accounts of a comparison

If the two trees hold no links and no output comes to lie in them, a run that ends has counted every
C++ file of the master tree once: as one without a difference, as an important difference or as another
one, and the reports are about the files that are to be reported (`Accounts`). Whether comments are
skipped does not touch the counters (`run_accounts`).
-/

namespace GenScope

namespace ComparisonSettings

/-- No output comes to lie below the directory: the diff folder is neither the directory nor below it,
and no link of the diff folder leads below the directory. -/
structure KeepsOut (s : ComparisonSettings) (t : FileTree) (diff root : Location) : Prop where
  outside : ¬ root <+: diff
  link : ∀ name target loc, t.get? (diff ++ [name]) = some (.link target) →
    t.landing (s.diffPath.child name) = .ok loc → root <+: loc → loc = root

/-- The difference between the file and its counterpart is one to report: it is important, or it is in
comments only and these are not skipped. -/
def IsReported (s : ComparisonSettings) (t : FileTree) (p : Path) : Prop :=
  ∃ d, s.compareFile t p = .ok (some d) ∧ (d.isImportant = true ∨ (d.onlyComments = true ∧ s.skipComments = false))

/-- What a finished run has counted and reported, given the C++ files of the walk. -/
structure Accounts (s : ComparisonSettings) (t : FileTree) (files : List Path) (reported : List FileDifference)
    (summary : ComparisonSummary) : Prop where
  total : summary.total = files.length
  sum : files.countP (fun p => s.compareFile t p = .ok none) + summary.important + summary.inessential = summary.total
  /-- The reports are about the files to report, in the order of the walk and each once. -/
  reports : ∃ paths, paths.Sublist files ∧ paths.Nodup ∧ (∀ p ∈ files, p ∈ paths ↔ s.IsReported t p) ∧
    List.Forall₂ (fun p d => s.compareFile t p = .ok (some d)) paths reported

variable {r : FieldReaders} {s : ComparisonSettings} {t : FileTree} {v : Value} {master compared diff root : Location}
  {names : List Text} {program : DiffProgram} {start stop : Binary64} {summary : ComparisonSummary}

/-! ### Trees apart from the diff folder -/

theorem KeepsOut.not_isWritable (h : s.KeepsOut t diff root) (hwf : t.WellFormed)
    (hanchor : s.diffPath.anchor ≠ .relative) (hdiff : t.follow s.diffPath = .ok diff) (hne : names ≠ []) :
    ¬ s.IsWritable t (root ++ names) := by
  rintro ⟨⟨name, hland⟩, hfree⟩
  by_cases hdir : t.get? diff = some .directory
  swap
  · exact absurd (hwf.eq_nil_of_landing_below hanchor hdiff hdir hland) (by simp)
  rcases FileTree.landing_child hdiff hdir hland with hloc | hloc | ⟨target, hlink⟩
  · rw [hloc] at hfree
    exact absurd (hfree.not_isDirectory (hwf.get?_dropLast hdir)) (by decide)
  · obtain ⟨dir, last, rfl⟩ : ∃ dir last, names = dir ++ [last] :=
      ⟨names.dropLast, names.getLast hne, (List.dropLast_append_getLast hne).symm⟩
    rw [← List.append_assoc] at hloc
    exact h.outside ⟨dir, (List.append_inj' hloc rfl).1⟩
  · exact hne (by simpa using h.link name target _ hlink hland (List.prefix_append _ _))

theorem KeepsOut.not_isWritable_of_landing (h : s.KeepsOut t diff root) (hwf : t.WellFormed)
    (hanchor : s.diffPath.anchor ≠ .relative) (hdiff : t.follow s.diffPath = .ok diff) (hl : t.LinkFreeBelow root)
    {p : Path} (hp : p.anchor ≠ .relative) (hroot : t.follow p = .ok root) (hrootdir : t.isDirectory p = true)
    (hnames : ∀ name ∈ names, IsEntryName name) {loc : Location} (hland : t.landing (p.below names) = .ok loc) :
    ¬ s.IsWritable t loc := by
  have hdots : ['.', '.'] ∉ names := fun hm => (hnames _ hm).dots rfl
  obtain rfl := hwf.eq_append_of_landing_below hp hroot hl hdots hland
  by_cases hne : names = []
  -- the root itself is a directory, where no output can come to lie
  · intro hwritable
    rw [hne, List.append_nil] at hwritable
    obtain ⟨e, hstat, he⟩ := FileTree.isDirectory_iff.1 hrootdir
    rw [hwritable.2.not_isDirectory (FileTree.get?_of_stat hstat hroot)] at he
    cases he
  · exact h.not_isWritable hwf hanchor hdiff hne

theorem apart_of_keepsOut (hwf : t.WellFormed) (hs : ComparisonSettings.ofValue r t v = .ok (.valid s))
    (hmaster : t.follow s.masterPath = .ok master) (hcompared : t.follow s.comparedPath = .ok compared)
    (hdiff : t.follow s.diffPath = .ok diff) (hl : t.LinkFreeBelow master ∧ t.LinkFreeBelow compared)
    (hout : s.KeepsOut t diff master ∧ s.KeepsOut t diff compared) : s.Apart t master := by
  obtain ⟨hmdir, hcdir, -⟩ := isDirectory_of_ofValue hwf hs
  obtain ⟨hmanchor, hcanchor, hdanchor⟩ := anchors_of_ofValue hs
  refine ⟨hmaster, fun dir name => ?_, fun names hnames loc => ?_, fun names hnames loc => ?_⟩
  · rw [List.append_assoc]
    exact hout.1.not_isWritable hwf hdanchor hdiff (by simp)
  · exact hout.1.not_isWritable_of_landing hwf hdanchor hdiff hl.1 hmanchor hmaster hmdir hnames
  · exact hout.2.not_isWritable_of_landing hwf hdanchor hdiff hl.2 hcanchor hcompared hcdir hnames

/-! ### Counting -/

theorem countP_isNone_add_length_filterMap {α β : Type} (f : α → Option β) (l : List α) :
    l.countP (fun a => (f a).isNone) + (l.filterMap f).length = l.length := by
  induction l with
  | nil => rfl
  | cons a l ih => cases h : f a <;> simp [h, ← ih] <;> omega

theorem forall₂_filter_filterMap {α β : Type} (f : α → Option β) (c : β → Bool) (l : List α) :
    List.Forall₂ (fun a b => f a = some b) (l.filter fun a => (f a).any c) ((l.filterMap f).filter c) := by
  induction l with
  | nil => exact .nil
  | cons a l ih =>
    cases h : f a with
    | none => simpa [h] using ih
    | some b =>
      by_cases hb : c b = true
      · simpa [h, hb] using ih
      · simpa [h, hb] using ih

theorem compareFile_below (s : ComparisonSettings) (t : FileTree) (names : List Text) :
    s.compareFile t (s.masterPath.below names) = .ok (s.differenceAt t names) := by
  rw [compareFile, Path.relativeTo?_below]

theorem isReported_below_iff :
    s.IsReported t (s.masterPath.below names) ↔ (s.differenceAt t names).any s.reports = true := by
  rw [IsReported, compareFile_below]
  cases s.differenceAt t names <;> simp [reports]

end ComparisonSettings

open ComparisonSettings in
theorem ComparisonProgress.Visited.accounts {s : ComparisonSettings} {t : FileTree} {master : Location}
    {p : ComparisonProgress} (h : p.Visited s t (t.namesBelow master)) (hwf : t.WellFormed)
    (hmaster : t.follow s.masterPath = .ok master) (milliseconds : Int) :
    s.Accounts t ((t.filesBelow s.masterPath).filter isCppFile) (p.reported s) (p.summary milliseconds) := by
  let names := (t.namesBelow master).filter fun names => isCppFile (s.masterPath.below names)
  have hfiles : (t.filesBelow s.masterPath).filter isCppFile = names.map s.masterPath.below := by
    rw [hwf.filesBelow_eq hmaster, List.filter_map]
    rfl
  have hdifferences : p.differences = names.filterMap (s.differenceAt t) := by
    rw [h.differences, List.filterMap_filter]
    rfl
  have htotal : p.total = names.length := by rw [h.total, List.countP_eq_length_filter]
  have hnone : (names.map s.masterPath.below).countP (fun p => s.compareFile t p = .ok none) =
      names.countP fun names => (s.differenceAt t names).isNone := by
    rw [List.countP_map]
    refine List.countP_congr fun names _ => ?_
    simp [compareFile_below]
  have hcounters : (p.summary milliseconds).important + (p.summary milliseconds).inessential =
      p.differences.length := by
    simpa [ComparisonProgress.summary] using
      (List.length_eq_countP_add_countP FileDifference.isImportant (l := p.differences)).symm
  refine ⟨?_, ?_, ?_⟩
  · rw [hfiles, List.length_map]
    exact htotal
  -- a file has no difference or one, which is important or not
  · have hsplit := countP_isNone_add_length_filterMap (s.differenceAt t) names
    rw [hfiles, hnone]
    rw [hdifferences] at hcounters
    show _ = p.total
    omega
  · let kept := names.filter fun names => (s.differenceAt t names).any s.reports
    have hsub : (kept.map s.masterPath.below).Sublist ((t.filesBelow s.masterPath).filter isCppFile) := by
      rw [hfiles]
      exact List.filter_sublist.map _
    refine ⟨kept.map s.masterPath.below, hsub, hsub.nodup ((FileTree.nodup_filesBelow t _).filter _), ?_, ?_⟩
    · intro r hr
      rw [hfiles] at hr
      obtain ⟨below, hbelow, rfl⟩ := List.mem_map.1 hr
      rw [isReported_below_iff]
      constructor
      · intro hkept
        obtain ⟨below', hbelow', heq⟩ := List.mem_map.1 hkept
        obtain rfl := Path.below_inj.1 heq
        exact (List.mem_filter.1 hbelow').2
      · intro hreports
        exact List.mem_map.2 ⟨below, List.mem_filter.2 ⟨hbelow, hreports⟩, rfl⟩
    · rw [ComparisonProgress.reported, hdifferences, List.forall₂_map_left_iff]
      refine (forall₂_filter_filterMap (s.differenceAt t) s.reports names).imp fun below d hd => ?_
      rw [compareFile_below, hd]

namespace ComparisonSettings

variable {r : FieldReaders} {s : ComparisonSettings} {t : FileTree} {v : Value} {master compared diff : Location}
  {program program' : DiffProgram} {skip : Bool} {start stop start' stop' : Binary64}
  {summary summary' : ComparisonSummary}

theorem Apart.visited_of_run (h : s.Apart t master) (hwf : t.WellFormed) (hroot : s.diffPath.anchor ≠ .relative)
    (hrun : (s.run t program start stop).value.result = .ok summary) :
    (s.run t program start stop).value.progress.Visited s t (t.namesBelow master) ∧
      summary = (s.run t program start stop).value.progress.summary (elapsedMilliseconds start stop) := by
  have hfault := exists_result_iff.1 ⟨_, hrun⟩
  have hvisited := (h.visited hwf hroot hfault).proceed hwf hroot program
  rw [run_progress]
  refine ⟨hvisited, ?_⟩
  rw [run_value] at hrun
  split at hrun <;> rename_i hall
  · cases hrun
  · rw [hall]
    exact (Except.ok.inj hrun).symm

/-- A finished run accounts for every C++ file of the master tree, and whether comments are skipped does
not change what it counts. -/
theorem run_accounts (hwf : t.WellFormed) (hs : ComparisonSettings.ofValue r t v = .ok (.valid s))
    (hmaster : t.follow s.masterPath = .ok master) (hcompared : t.follow s.comparedPath = .ok compared)
    (hdiff : t.follow s.diffPath = .ok diff) (hl : t.LinkFreeBelow master ∧ t.LinkFreeBelow compared)
    (hout : s.KeepsOut t diff master ∧ s.KeepsOut t diff compared)
    (hrun : (s.run t program start stop).value.result = .ok summary) :
    s.Accounts t ((t.filesBelow s.masterPath).filter isCppFile)
        ((s.run t program start stop).value.progress.reported s) summary ∧
      ((({ s with skipComments := skip } : ComparisonSettings).run t program' start' stop').value.result =
        .ok summary' → summary'.total = summary.total ∧ summary'.important = summary.important ∧
          summary'.inessential = summary.inessential) := by
  have hapart := apart_of_keepsOut hwf hs hmaster hcompared hdiff hl hout
  have hroot := diffPath_anchor_of_ofValue hs
  obtain ⟨hvisited, hsummary⟩ := hapart.visited_of_run hwf hroot hrun
  refine ⟨?_, fun hrun' => ?_⟩
  · rw [hsummary]
    exact hvisited.accounts hwf hmaster _
  · -- what is counted is told by the tree before the run, which both runs start from
    have hapart' : ({ s with skipComments := skip } : ComparisonSettings).Apart t master :=
      ⟨hapart.walk, hapart.listed, hapart.master, hapart.compared⟩
    obtain ⟨hvisited', hsummary'⟩ := hapart'.visited_of_run hwf hroot hrun'
    have htotal := hvisited'.total.trans hvisited.total.symm
    have hcount := fun c => congrArg (List.countP c) (hvisited'.differences.trans hvisited.differences.symm)
    rw [hsummary, hsummary']
    exact ⟨htotal, hcount _, hcount _⟩

/-- An important difference whose output a link leads out of the diff folder, one in comments only, one
of a file of variables, and a file that is the same. -/
theorem run_accounts_skipped :
    let zeros : Bytes := List.replicate 30 0
    let t : FileTree := ⟨[(["c"], .directory), (["c", "b.cpp"], .file (zeros ++ [1])), (["c", "same.h"], .file [5]),
      (["d"], .directory), (["d", "a.cpp"], .link "/x"), (["m"], .directory), (["m", "a.cpp"], .file [1]),
      (["m", "b.cpp"], .file (zeros ++ [2])), (["m", "same.h"], .file [5]), (["m", "vars1.cpp"], .file [9])],
      by decide +kernel, [], [], []⟩
    let s : ComparisonSettings := ⟨"/m", "/c", "/d", false, 64, 30⟩
    let run := (s.run t (.silent true) (.finite 0 0) (.finite 0 0)).value
    let skipping := (({ s with skipComments := true } : ComparisonSettings).run t (.silent true) (.finite 0 0)
      (.finite 0 0)).value
    (t.WellFormed ∧ ComparisonSettings.ofValue .lax t (.object [(some ("master_root" : Text), .text "/m"),
        (some ("cmp_root" : Text), .text "/c"), (some ("diff_root" : Text), .text "/d")]) = .ok (.valid s) ∧
      t.follow s.masterPath = .ok ["m"] ∧ t.follow s.comparedPath = .ok ["c"] ∧ t.follow s.diffPath = .ok ["d"] ∧
      (t.LinkFreeBelow ["m"] ∧ t.LinkFreeBelow ["c"]) ∧ s.KeepsOut t ["d"] ["m"] ∧ s.KeepsOut t ["d"] ["c"]) ∧
    run.result = .ok ⟨4, 2, 1, 0⟩ ∧
    s.Accounts t [.ofText "/m/a.cpp", .ofText "/m/b.cpp", .ofText "/m/same.h", .ofText "/m/vars1.cpp"]
      [⟨"a.cpp", false, true, true⟩, ⟨"b.cpp", true, false, false⟩] ⟨4, 2, 1, 0⟩ ∧
    ∃ summary, skipping.result = .ok summary ∧ summary.total = 4 ∧ summary.important = 1 ∧ summary.inessential = 2 := by
  intro zeros t s run skipping
  have hwf : t.WellFormed := .of_entries (by decide +kernel)
  have hs : ComparisonSettings.ofValue .lax t (.object [(some ("master_root" : Text), .text "/m"),
      (some ("cmp_root" : Text), .text "/c"), (some ("diff_root" : Text), .text "/d")]) = .ok (.valid s) := by rfl
  have hl : t.LinkFreeBelow ["m"] ∧ t.LinkFreeBelow ["c"] := ⟨.of_entries (by simp [t]), .of_entries (by simp [t])⟩
  have hland : t.landing (s.diffPath.child "a.cpp") = .ok ["x"] := by decide +kernel
  have hkeeps : ∀ root : Location, ¬ root <+: ["d"] → ¬ root <+: ["x"] → s.KeepsOut t ["d"] root := by
    intro root hdir hx
    refine ⟨hdir, fun name target loc hget hloc hroot => ?_⟩
    have hmem := hwf.mem_entries_iff.2 ⟨by simp, hget⟩
    obtain ⟨rfl, -⟩ : name = "a.cpp" ∧ target = "/x" := by simpa [t] using hmem
    rw [hland] at hloc
    obtain rfl := Except.ok.inj hloc
    exact absurd hroot hx
  have hout : s.KeepsOut t ["d"] ["m"] ∧ s.KeepsOut t ["d"] ["c"] :=
    ⟨hkeeps _ (by decide) (by decide), hkeeps _ (by decide) (by decide)⟩
  have hrun : run.result = .ok ⟨4, 2, 1, 0⟩ := by decide +kernel
  have hskipping : skipping.result = .ok ⟨4, 2, 1, 0⟩ := by decide +kernel
  have hmaster : t.follow s.masterPath = .ok ["m"] := by rfl
  have hcompared : t.follow s.comparedPath = .ok ["c"] := by rfl
  have hdiff : t.follow s.diffPath = .ok ["d"] := by rfl
  obtain ⟨haccounts, hsame⟩ : _ ∧ (skipping.result = .ok ⟨4, 2, 1, 0⟩ → _) :=
    run_accounts hwf hs hmaster hcompared hdiff hl hout hrun
  have hfiles : (t.filesBelow s.masterPath).filter isCppFile =
      [.ofText "/m/a.cpp", .ofText "/m/b.cpp", .ofText "/m/same.h", .ofText "/m/vars1.cpp"] := by decide +kernel
  have hreported : run.progress.reported s = [⟨"a.cpp", false, true, true⟩, ⟨"b.cpp", true, false, false⟩] := by
    decide +kernel
  rw [hfiles, hreported] at haccounts
  exact ⟨⟨hwf, hs, hmaster, hcompared, hdiff, hl, hout⟩, hrun, haccounts, _, hskipping, hsame hskipping⟩

/-- A link of the diff folder leads the output of a report into the master tree: a file that is the same
in both trees is emptied before the walk comes to it, and counted as a difference. -/
theorem run_accounts_linked :
    let t : FileTree := ⟨[(["c"], .directory), (["c", "b.cpp"], .file [2]), (["d"], .directory),
      (["d", "a.cpp"], .link "/m/b.cpp"), (["m"], .directory), (["m", "a.cpp"], .file [1]),
      (["m", "b.cpp"], .file [2])], by decide +kernel, [], [], []⟩
    let s : ComparisonSettings := ⟨"/m", "/c", "/d", false, 64, 30⟩
    let run := (s.run t (.silent true) (.finite 0 0) (.finite 0 0)).value
    let files := (t.filesBelow s.masterPath).filter isCppFile
    (t.WellFormed ∧ ComparisonSettings.ofValue .lax t (.object [(some ("master_root" : Text), .text "/m"),
        (some ("cmp_root" : Text), .text "/c"), (some ("diff_root" : Text), .text "/d")]) = .ok (.valid s) ∧
      t.follow s.masterPath = .ok ["m"] ∧ t.follow s.comparedPath = .ok ["c"] ∧ t.follow s.diffPath = .ok ["d"] ∧
      (t.LinkFreeBelow ["m"] ∧ t.LinkFreeBelow ["c"]) ∧ ¬ (["m"] : Location) <+: ["d"] ∧
      ¬ (["c"] : Location) <+: ["d"]) ∧
    run.result = .ok ⟨2, 0, 2, 0⟩ ∧ files.countP (fun p => s.compareFile t p = .ok none) = 1 ∧
    ¬ s.Accounts t files (run.progress.reported s) ⟨2, 0, 2, 0⟩ := by
  intro t s run files
  have hcount : files.countP (fun p => s.compareFile t p = .ok none) = 1 := by decide +kernel
  refine ⟨⟨.of_entries (by decide +kernel), by rfl, by rfl, by rfl, by rfl,
    ⟨.of_entries (by simp [t]), .of_entries (by simp [t])⟩, by decide, by decide⟩, by decide +kernel, hcount, ?_⟩
  intro h
  have hsum := h.sum
  rw [hcount] at hsum
  exact absurd hsum (by decide)

end ComparisonSettings

end GenScope
