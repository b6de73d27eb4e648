import GenScope.Proofs.Comparison.Accounting
import GenScope.Proofs.Comparison.Written
import GenScope.Proofs.FileTree.SameButFiles

/-!
# Comparisons that come to an end

Reading takes what cannot be read for an empty file, and a diff program that cannot be started is only
recorded, but both versions of a reported file are copied without such care. With an empty diff folder
that is not seen by what is compared (`Separate`), a run comes to its summary exactly if every file it
reports can be read, and its counterpart too unless nothing is there, and the copies can be put into the
folder, with names that are not too long (`run_completes_iff`).
-/

namespace GenScope

open FileTree (Extends WrittenAt)

namespace ComparisonSettings

/-- The diff folder is empty and not below the master tree, and no path below one of the two roots leads
into it, by links either. -/
structure Separate (s : ComparisonSettings) (t : FileTree) (master diff : Location) : Prop where
  follow_master : t.follow s.masterPath = .ok master
  follow_diff : t.follow s.diffPath = .ok diff
  empty : ∀ name, t.get? (diff ++ [name]) = none
  outside : ¬ master <+: diff
  unseen : ∀ names, (∀ name ∈ names, IsEntryName name) → ∀ name,
    t.landing (s.masterPath.below names) ≠ .ok (diff ++ [name]) ∧
      t.landing (s.comparedPath.below names) ≠ .ok (diff ++ [name])

/-- The name of the copy of the master version. -/
def copyName (names : List Text) : Text :=
  "master_" ++ Text.substitute '/' '_' (Path.toText ⟨.relative, names⟩)

/-- The diff folder may be entered, the name of the copy is short enough, the master version can be read,
and so can the compared one unless there is nothing at its path. -/
structure Copyable (s : ComparisonSettings) (t : FileTree) (names : List Text) : Prop where
  folder : t.stat s.diffPath = .ok .directory
  name : FileTree.isShortName (copyName names) = true
  master : ∃ content, t.read (s.masterPath.below names) = .ok content
  compared : t.probe (s.comparedPath.below names) = .ok none ∨
    ∃ content, t.read (s.comparedPath.below names) = .ok content

/-- At a counterpart in a closed directory the run would break off. -/
theorem Copyable.not_closed {s : ComparisonSettings} {t : FileTree} {names : List Text} {loc : Location}
    (h : s.Copyable t names) (hwf : t.WellFormed) (hanchor : s.comparedPath.anchor ≠ .relative)
    (hfollow : t.follow s.comparedPath = .ok loc) (hne : names ≠ []) : t.get? loc ≠ some .closed := by
  intro hclosed
  have hdenied := hwf.probe_below_closed hanchor hfollow hclosed hne
  rcases h.compared with hnone | ⟨content, hread⟩
  · rw [hdenied] at hnone
    cases hnone
  · rw [FileTree.probe_of_read hread] at hdenied
    cases hdenied

/-- If the difference at the file is reported, both versions can be copied. -/
def Survives (s : ComparisonSettings) (t : FileTree) (names : List Text) : Prop :=
  ∀ d, s.noted? t names = some d → s.reports d = true → s.Copyable t names

variable {s : ComparisonSettings} {t u : FileTree} {master diff : Location} {names : List Text} {name : Text}
  {d : FileDifference} {program : DiffProgram}

namespace Separate

theorem isWritable (h : s.Separate t master diff) (hwf : t.WellFormed) (hroot : s.diffPath.anchor ≠ .relative)
    {loc : Location} (hloc : s.IsWritable t loc) : ∃ name, loc = diff ++ [name] := by
  obtain ⟨⟨name, hland⟩, hfree⟩ := hloc
  by_cases hdir : t.get? diff = some .directory
  swap
  · exact absurd (hwf.eq_nil_of_landing_below hroot h.follow_diff hdir hland) (by simp)
  rcases FileTree.landing_child h.follow_diff hdir hland with hloc | hloc | ⟨target, hlink⟩
  · rw [hloc] at hfree
    exact absurd (hfree.not_isDirectory (hwf.get?_dropLast hdir)) (by decide)
  · exact ⟨name, hloc⟩
  · rw [h.empty] at hlink
    cases hlink

theorem apart (h : s.Separate t master diff) (hwf : t.WellFormed) (hroot : s.diffPath.anchor ≠ .relative) :
    s.Apart t master := by
  refine ⟨h.follow_master, fun dir name hw => ?_, fun names hnames loc hland hw => ?_, fun names hnames loc hland hw => ?_⟩
  · obtain ⟨name', heq⟩ := h.isWritable hwf hroot hw
    exact h.outside ⟨dir, (List.append_inj' heq rfl).1⟩
  · obtain ⟨name, rfl⟩ := h.isWritable hwf hroot hw
    exact (h.unseen names hnames name).1 hland
  · obtain ⟨name, rfl⟩ := h.isWritable hwf hroot hw
    exact (h.unseen names hnames name).2 hland

end Separate

theorem landing_ne_of_linkFreeBelow {p : Path} {root : Location} (hwf : t.WellFormed) (hp : p.anchor ≠ .relative)
    (hroot : t.follow p = .ok root) (hdir : t.isDirectory p = true) (hl : t.LinkFreeBelow root)
    (hempty : ∀ name, t.get? (diff ++ [name]) = none) (hout : ¬ root <+: diff)
    (hnames : ∀ name ∈ names, IsEntryName name) (name : Text) : t.landing (p.below names) ≠ .ok (diff ++ [name]) := by
  intro hland
  have hdots : ['.', '.'] ∉ names := fun hm => (hnames _ hm).dots rfl
  have heq := hwf.eq_append_of_landing_below hp hroot hl hdots hland
  obtain ⟨e, hstat, -⟩ := FileTree.isDirectory_iff.1 hdir
  exact below_ne (FileTree.get?_of_stat hstat hroot) hempty hout names name heq.symm

theorem separate_of_ofValue {r : FieldReaders} {v : Value} (hwf : t.WellFormed) (hl : t.LinkFree)
    (hs : ComparisonSettings.ofValue r t v = .ok (.valid s))
    (hempty : ∀ name, t.get? (s.diffPath.names ++ [name]) = none)
    (hmaster : ¬ s.masterPath.names <+: s.diffPath.names)
    (hcompared : ¬ s.comparedPath.names <+: s.diffPath.names) :
    s.Separate t s.masterPath.names s.diffPath.names := by
  have hfollow : ∀ {p : Path}, (∃ loc e, t.get? loc = some e ∧ e.isDirectory = true ∧ p = ⟨.top, loc⟩) →
      t.follow p = .ok p.names := by
    rintro p ⟨loc, e, hget, -, rfl⟩
    exact hwf.follow_top hl hget
  obtain ⟨hm, hc, hd⟩ := paths_of_ofValue hwf hl hs
  obtain ⟨hmdir, hcdir, -⟩ := isDirectory_of_ofValue hwf hs
  obtain ⟨hmanchor, hcanchor, -⟩ := anchors_of_ofValue hs
  refine ⟨hfollow hm, hfollow hd, hempty, hmaster, fun names hnames name => ⟨?_, ?_⟩⟩
  · exact landing_ne_of_linkFreeBelow hwf hmanchor (hfollow hm) hmdir (hl.below _) hempty hmaster hnames name
  · exact landing_ne_of_linkFreeBelow hwf hcanchor (hfollow hc) hcdir (hl.below _) hempty hcompared hnames name

end ComparisonSettings

/-! ### Reports -/

section Reports

variable {s : ComparisonSettings} {t u : FileTree} {master diff : Location} {names : List Text} {name : Text}
  {d : FileDifference} {program : DiffProgram} {f : DiffFolder} {source : Path}

open ComparisonSettings

theorem isWritable_of_receives (loc : Location) (h : t.Receives (s.diffPath.child name) loc) : s.IsWritable t loc :=
  ⟨⟨name, h.1⟩, h.2⟩

namespace DiffFolder

theorem jobsWriteAt_isWritable (f : DiffFolder) : f.JobsWriteAt t s.diffPath (s.IsWritable t) :=
  fun _ _ => isWritable_of_receives

theorem addCopy_fault_iff (program : DiffProgram) (hs : s.Separate t master diff) (hwf : t.WellFormed)
    (hroot : s.diffPath.anchor ≠ .relative) (h : WrittenAt t (s.IsWritable t) f.tree) (hname : IsEntryName name)
    (hsource : t.landing source ≠ .ok (diff ++ [name]))
    (hunseen : ∀ loc, t.landing source = .ok loc → ¬ s.IsWritable t loc) :
    (f.addCopy s.diffPath program source name).2 = none ↔ t.stat s.diffPath = .ok .directory ∧
      FileTree.isShortName name = true ∧ ∃ content, t.read source = .ok content := by
  have hproceed := h.trans (proceed_writtenAt program h.toExtends hwf hroot f.jobsWriteAt_isWritable)
  have hfault : (f.addCopy s.diffPath program source name).2 = none ↔
      ∃ u, (f.proceed s.diffPath program).tree.copy source (s.diffPath.child name) = .ok u := by
    unfold addCopy
    dsimp only
    cases (f.proceed s.diffPath program).tree.copy source (s.diffPath.child name) <;> simp
  rw [hfault]
  generalize f.proceed s.diffPath program = g at hproceed
  rw [FileTree.stat_iff_of_follow hs.follow_diff]
  by_cases hplace : t.get? diff = some .directory ∧ FileTree.isShortName name = true
  · obtain ⟨hdir, hshort⟩ := hplace
    have hland : g.tree.landing (s.diffPath.child name) = .ok (diff ++ [name]) :=
      hproceed.landing_iff.2 (FileTree.landing_child_of_none hs.follow_diff hdir hname.dots hshort (hs.empty name))
    have hfree : g.tree.IsFree (diff ++ [name]) := hproceed.isFree_iff.2 (.of_none (hs.empty name))
    rw [FileTree.copy_isOk_iff hland hfree (mt hproceed.landing_iff.1 hsource), and_iff_right hdir,
      and_iff_right hshort]
    exact exists_congr fun content => hproceed.read_iff hunseen
  · refine iff_of_false ?_ fun hall => hplace ⟨hall.1, hall.2.1⟩
    rintro ⟨u, hcopy⟩
    obtain ⟨-, loc, hland⟩ := FileTree.of_copy_eq_ok hcopy
    rw [hproceed.landing_iff] at hland
    by_cases hdir : t.get? diff = some .directory
    · exact hplace ⟨hdir, FileTree.isShortName_of_landing_child hs.follow_diff hdir hname.dots hland⟩
    · exact absurd (hwf.eq_nil_of_landing_below hroot hs.follow_diff hdir hland) (by simp)

theorem add_fault_iff (program : DiffProgram) (hs : s.Separate t master diff) (hwf : t.WellFormed)
    (hroot : s.diffPath.anchor ≠ .relative) (h : WrittenAt t (s.IsWritable t) f.tree)
    (hd : d.relativePath = Path.toText ⟨.relative, names⟩) (hnames : ∀ name ∈ names, IsEntryName name) :
    (f.add s.diffPath program ⟨s.masterPath.below names, s.comparedPath.below names, d.flatName⟩).value.2 = none ↔
      s.Copyable t names := by
  let job : DiffJob := ⟨s.masterPath.below names, s.comparedPath.below names, d.flatName⟩
  have hcopyName : copyName names = "master_" ++ d.flatName :=
    congrArg (fun path => ("master_" : Text) ++ Text.substitute '/' '_' path) hd.symm
  have hmaster : IsEntryName ("master_" ++ d.flatName) :=
    isEntryName_append (by decide) d.slash_not_mem_flatName
  have hcompared : IsEntryName ("cmp_" ++ d.flatName) := isEntryName_append (by decide) d.slash_not_mem_flatName
  have happart := hs.apart hwf hroot
  have hstart : WrittenAt t (s.IsWritable t) (f.startJob s.diffPath program job).value.tree :=
    h.trans ((startJob_writtenAt h.toExtends hwf hroot program job).mono isWritable_of_receives)
  simp only [add, Logged.value_bind_eq]
  generalize (f.startJob s.diffPath program job).value = g at hstart
  have hfirst := addCopy_fault_iff program hs hwf hroot hstart hmaster (hs.unseen names hnames _).1
    (happart.master names hnames)
  have hcopyable : s.Copyable t names ↔ (g.addCopy s.diffPath program (s.masterPath.below names)
      ("master_" ++ d.flatName)).2 = none ∧ (t.probe (s.comparedPath.below names) = .ok none ∨
        ∃ content, t.read (s.comparedPath.below names) = .ok content) := by
    rw [hfirst, ← hcopyName]
    exact ⟨fun h => ⟨⟨h.folder, h.name, h.master⟩, h.compared⟩, fun ⟨⟨hd, hn, hm⟩, hc⟩ => ⟨hd, hn, hm, hc⟩⟩
  show (g.addCopies s.diffPath program job).2 = none ↔ _
  rw [hcopyable]
  unfold addCopies
  rcases hcopy : g.addCopy s.diffPath program (s.masterPath.below names) ("master_" ++ d.flatName) with
    ⟨k, _ | fault⟩
  -- the first copy has gone well: the compared version is looked for in the tree with that copy
  · have hwritten := hstart.trans (addCopy_writtenAt hstart.toExtends hwf hroot g.jobsWriteAt_isWritable
      isWritable_of_receives hcopy)
    have hprobe : k.tree.probe (s.comparedPath.below names) = t.probe (s.comparedPath.below names) :=
      hwritten.toSameWays.probe_eq fun loc hland => hwritten.outside (happart.compared names hnames loc hland)
    have hsecond := addCopy_fault_iff program hs hwf hroot hwritten hcompared
      (hs.unseen names hnames _).2 (happart.compared names hnames)
    obtain ⟨hfolder, hshort, -⟩ := hfirst.1 (by rw [hcopy])
    rw [and_iff_right hfolder, and_iff_right (isShortName_append (by decide) hshort)] at hsecond
    rw [← hprobe, and_iff_right rfl]
    dsimp only
    split
    · rename_i fault hfault
      have hfault : k.tree.probe (s.comparedPath.below names) = .error fault := hfault
      have hread : ¬ ∃ content, t.read (s.comparedPath.below names) = .ok content := by
        rintro ⟨content, hread⟩
        rw [hprobe, FileTree.probe_of_read hread] at hfault
        cases hfault
      simp [hfault, hread]
    · rename_i hnone
      exact iff_of_true rfl (.inl hnone)
    · rename_i e hthere
      rw [hsecond, hthere]
      simp
  · simp

end DiffFolder

namespace ComparisonProgress

variable {p : ComparisonProgress} {done : List (List Text)}

theorem Visited.fault_iff (h : p.Visited s t done) (hs : s.Separate t master diff) (hwf : t.WellFormed)
    (hroot : s.diffPath.anchor ≠ .relative) (hnames : ∀ name ∈ names, IsEntryName name) :
    (p.visitFile s program names).value.2 = none ↔ s.Survives t names := by
  have hwritten := (h.confined.proceed hwf hroot program).writtenAt
  unfold Survives
  rw [← (hs.apart hwf hroot).noted?_eq hwritten hnames]
  unfold ComparisonProgress.visitFile noted?
  by_cases hcpp : isCppFile (s.masterPath.below names) = true
  · simp only [if_pos hcpp]
    cases hd : s.differenceAt (p.proceed s program).folder.tree names with
    | none => simp [pure, Logged.pure]
    | some d =>
      simp only [Option.some.injEq, forall_eq']
      unfold note
      by_cases hreport : s.reports d = true
      · have hadd := DiffFolder.add_fault_iff program hs hwf hroot hwritten (relativePath_of_differenceAt hd) hnames
        simp only [hreport, forall_const]
        exact hadd
      · simp [hreport, pure, Logged.pure]
  · simp [if_neg hcpp, pure, Logged.pure]

/-- The run has come through these files, and it has met a fault exactly if one of them is reported and
cannot be copied. -/
structure Passed (s : ComparisonSettings) (t : FileTree) (done : List (List Text))
    (x : ComparisonProgress × Option CopyFault) : Prop where
  visited : x.1.Visited s t done
  fault : x.2 = none ↔ ∀ names ∈ done, s.Survives t names

theorem Passed.visitFile (h : Passed s t done (p, none)) (hs : s.Separate t master diff) (hwf : t.WellFormed)
    (hroot : s.diffPath.anchor ≠ .relative) (hnames : ∀ name ∈ names, IsEntryName name) :
    Passed s t (done ++ [names]) (p.visitFile s program names).value := by
  refine ⟨h.visited.visitFile (hs.apart hwf hroot) hwf hroot hnames, ?_⟩
  rw [h.visited.fault_iff hs hwf hroot hnames]
  constructor
  · intro hlast other hother
    rcases List.mem_append.1 hother with hother | hother
    · exact h.fault.1 rfl other hother
    · rwa [List.mem_singleton.1 hother]
  · intro hall
    exact hall names (by simp)

end ComparisonProgress

end Reports

/-! ### Runs -/

namespace ComparisonSettings

variable {r : FieldReaders} {s : ComparisonSettings} {t : FileTree} {v : Value} {master diff : Location}
  {program : DiffProgram} {start stop : Binary64}

theorem visitAll_fault_iff (program : DiffProgram) (hs : s.Separate t master diff) (hwf : t.WellFormed)
    (hroot : s.diffPath.anchor ≠ .relative) :
    (s.visitAll t program).value.2 = none ↔ ∀ names ∈ t.namesBelow master, s.Survives t names := by
  have hstart : ComparisonProgress.Passed s t [] (.start t, none) := ⟨.start s t, by simp⟩
  obtain ⟨seen, hseen, hpassed, hall⟩ := visitAll_run program hs.follow_master hstart
    (fun done p dir hp => hp.visited.filesIn_eq (hs.apart hwf hroot) dir)
    fun done p names hnames hp => hp.visitFile hs hwf hroot (isEntryName_of_mem_namesBelow hwf hnames)
  constructor
  -- without a fault the run has come through all files, and with one it has met it on the way
  · intro hnone
    rw [← hall hnone]
    exact hpassed.fault.1 hnone
  · intro h
    exact hpassed.fault.2 fun names hnames => h names (hseen.subset hnames)

/-- What a run comes to does not depend on the diff program. -/
theorem Separate.run_congr {summary : ComparisonSummary} (hs : s.Separate t master diff) (hwf : t.WellFormed)
    (hroot : s.diffPath.anchor ≠ .relative) (hrun : (s.run t program start stop).value.result = .ok summary)
    (program' : DiffProgram) : (s.run t program' start stop).value.result = .ok summary ∧
      (s.run t program' start stop).value.progress.reported s =
        (s.run t program start stop).value.progress.reported s := by
  have hnone : (s.visitAll t program').value.2 = none :=
    (visitAll_fault_iff program' hs hwf hroot).2
      ((visitAll_fault_iff program hs hwf hroot).1 (exists_result_iff.1 ⟨_, hrun⟩))
  obtain ⟨summary', hrun'⟩ : ∃ summary', (s.run t program' start stop).value.result = .ok summary' :=
    exists_result_iff.2 hnone
  obtain ⟨hvisited, rfl⟩ := (hs.apart hwf hroot).visited_of_run hwf hroot hrun
  obtain ⟨hvisited', rfl⟩ := (hs.apart hwf hroot).visited_of_run hwf hroot hrun'
  have htotal := hvisited'.total.trans hvisited.total.symm
  have hdifferences := hvisited'.differences.trans hvisited.differences.symm
  rw [hrun', ComparisonProgress.reported, hdifferences, ComparisonProgress.summary, htotal, hdifferences]
  exact ⟨rfl, rfl⟩

theorem Separate.copyable_of_reported {summary : ComparisonSummary} {d : FileDifference}
    (hs : s.Separate t master diff) (hwf : t.WellFormed) (hroot : s.diffPath.anchor ≠ .relative)
    (hrun : (s.run t program start stop).value.result = .ok summary)
    (hd : d ∈ (s.run t program start stop).value.progress.reported s) :
    ∃ names ∈ t.namesBelow master, s.Copyable t names := by
  obtain ⟨hvisited, -⟩ := (hs.apart hwf hroot).visited_of_run hwf hroot hrun
  rw [ComparisonProgress.reported, hvisited.differences, List.mem_filter, List.mem_filterMap] at hd
  obtain ⟨⟨names, hnames, hnoted⟩, hreports⟩ := hd
  exact ⟨names, hnames,
    (visitAll_fault_iff program hs hwf hroot).1 (exists_result_iff.1 ⟨_, hrun⟩) names hnames d hnoted hreports⟩

theorem forall_survives_iff (hwf : t.WellFormed) (hmaster : t.follow s.masterPath = .ok master) :
    (∀ names ∈ t.namesBelow master, s.Survives t names) ↔
      ∀ names, s.masterPath.below names ∈ t.filesBelow s.masterPath → isCppFile (s.masterPath.below names) = true →
        s.IsReported t (s.masterPath.below names) → s.Copyable t names := by
  have hmem : ∀ names, s.masterPath.below names ∈ t.filesBelow s.masterPath ↔ names ∈ t.namesBelow master := by
    intro names
    rw [hwf.filesBelow_eq hmaster, List.mem_map]
    constructor
    · rintro ⟨names', hnames, heq⟩
      rwa [← Path.below_inj.1 heq]
    · exact fun hnames => ⟨names, hnames, rfl⟩
  refine forall_congr' fun names => ?_
  rw [hmem, isReported_below_iff]
  refine imp_congr_right fun _ => ?_
  unfold Survives noted?
  by_cases hcpp : isCppFile (s.masterPath.below names) = true
  · rw [if_pos hcpp]
    cases s.differenceAt t names <;> simp [hcpp]
  · simp [hcpp]

/-- With an empty diff folder that the comparison does not see, a run gives a summary exactly if each
file that is reported can be read, and its counterpart too unless nothing is there, and the copies can be
put into the folder. -/
theorem run_completes_iff (hwf : t.WellFormed) (hs : ComparisonSettings.ofValue r t v = .ok (.valid s))
    (hseparate : s.Separate t master diff) :
    (∃ summary, (s.run t program start stop).value.result = .ok summary) ↔
      ∀ names, s.masterPath.below names ∈ t.filesBelow s.masterPath → isCppFile (s.masterPath.below names) = true →
        s.IsReported t (s.masterPath.below names) → s.Copyable t names := by
  rw [← forall_survives_iff hwf hseparate.follow_master,
    ← visitAll_fault_iff program hseparate hwf (diffPath_anchor_of_ofValue hs), exists_result_iff]

/-- A directory in the place of an empty file and a link that leads nowhere are not reported, and a file
without a counterpart is copied. -/
theorem run_completes_oddities :
    let t : FileTree := ⟨[(["c"], .directory), (["c", "b.cpp"], .directory), (["d"], .directory), (["m"], .directory),
      (["m", "a.cpp"], .file [1]), (["m", "b.cpp"], .file []), (["m", "gone.h"], .link "/nowhere")],
      by decide +kernel, [], [], []⟩
    let s : ComparisonSettings := ⟨"/m", "/c", "/d", false, 64, 30⟩
    (t.WellFormed ∧ ComparisonSettings.ofValue .lax t (.object [(some ("master_root" : Text), .text "/m"),
        (some ("cmp_root" : Text), .text "/c"), (some ("diff_root" : Text), .text "/d")]) = .ok (.valid s) ∧
      s.Separate t ["m"] ["d"]) ∧
    ∃ summary, (s.run t (.silent true) (.finite 0 0) (.finite 0 0)).value.result = .ok summary := by
  intro t s
  have hwf : t.WellFormed := .of_entries (by decide +kernel)
  have hs : ComparisonSettings.ofValue .lax t (.object [(some ("master_root" : Text), .text "/m"),
      (some ("cmp_root" : Text), .text "/c"), (some ("diff_root" : Text), .text "/d")]) = .ok (.valid s) := by rfl
  have hempty : ∀ name, t.get? ((["d"] : Location) ++ [name]) = none := fun name =>
    FileTree.get?_eq_none (by simp) (by simp [t])
  have hmaster : ∀ names : List Text, (∀ name ∈ names, IsEntryName name) → ∀ name : Text,
      t.landing (s.masterPath.below names) ≠ .ok ((["d"] : Location) ++ [name]) := by
    intro names hnames name hland
    have hd : FileTree.descend t true (FileTree.followWithin t true 39) [] ((["m"] : Location) ++ names) =
        .ok ((["d"] : Location) ++ [name]) := hland
    rw [hwf.descend_append (by rfl)] at hd
    cases names with
    | nil => cases hd
    | cons first names =>
      rcases FileTree.descend_cons_eq_ok_iff.1 hd with ⟨hdots, -⟩ | ⟨-, ⟨hget, -⟩ | ⟨-, -, hloc⟩ | ⟨target, hget, hon⟩⟩
      · exact (hnames first (by simp)).dots hdots
      · have hmem := hwf.mem_entries_iff.2 ⟨by simp, hget⟩
        simp [t] at hmem
      · simp at hloc
      · have hmem := hwf.mem_entries_iff.2 ⟨by simp, hget⟩
        obtain ⟨rfl, rfl⟩ : first = "gone.h" ∧ target = "/nowhere" := by simpa [t] using hmem
        -- behind the link there is nothing either
        have hd : FileTree.descend t true (FileTree.followWithin t true 38) [] ("nowhere" :: names) =
            .ok ((["d"] : Location) ++ [name]) := hon
        rcases FileTree.descend_cons_eq_ok_iff.1 hd with ⟨hdots, -⟩ | ⟨-, ⟨hget, -⟩ | ⟨-, -, hloc⟩ | ⟨_, hget, -⟩⟩
        · exact absurd hdots (by decide)
        · cases hget
        · simp at hloc
        · cases hget
  have hseparate : s.Separate t ["m"] ["d"] := by
    refine ⟨by rfl, by rfl, hempty, by decide, fun names hnames name => ⟨hmaster names hnames name, ?_⟩⟩
    have hcompared : t.follow s.comparedPath = .ok ["c"] := by rfl
    exact landing_ne_of_linkFreeBelow hwf (by decide) hcompared (by rfl) (.of_entries (by simp [t])) hempty
      (by decide) hnames name
  have hfiles : t.filesBelow s.masterPath = [.ofText "/m/a.cpp", .ofText "/m/b.cpp", .ofText "/m/gone.h"] := by
    decide +kernel
  refine ⟨⟨hwf, hs, hseparate⟩, (run_completes_iff hwf hs hseparate).2 fun names hnames _ hreported => ?_⟩
  have hsame : ∀ p ∈ [Path.ofText "/m/b.cpp", .ofText "/m/gone.h"], s.compareFile t p = .ok none := by decide +kernel
  rw [hfiles] at hnames
  rcases List.mem_cons.1 hnames with heq | hnames
  · obtain rfl : names = ["a.cpp"] := Path.below_inj.1 heq
    exact ⟨by decide +kernel, by decide, ⟨[1], by decide +kernel⟩, .inl (by decide +kernel)⟩
  · obtain ⟨d, hd, -⟩ := hreported
    rw [hsame _ hnames] at hd
    cases hd

/-- A directory in the place of a file that is not empty: the difference is reported, and the run breaks
off where the directory is to be copied. -/
theorem run_breaks_off_at_directory :
    let t : FileTree := ⟨[(["c"], .directory), (["c", "a.cpp"], .directory), (["d"], .directory), (["m"], .directory),
      (["m", "a.cpp"], .file [1])], by decide +kernel, [], [], []⟩
    let s : ComparisonSettings := ⟨"/m", "/c", "/d", false, 64, 30⟩
    (t.WellFormed ∧ ComparisonSettings.ofValue .lax t (.object [(some ("master_root" : Text), .text "/m"),
        (some ("cmp_root" : Text), .text "/c"), (some ("diff_root" : Text), .text "/d")]) = .ok (.valid s) ∧
      s.Separate t ["m"] ["d"] ∧ t.follow s.comparedPath = .ok ["c"] ∧ ¬ (["c"] : Location) <+: ["d"]) ∧
    (s.run t (.silent true) (.finite 0 0) (.finite 0 0)).value.result =
      .error (.unopened .isADirectory (.ofText "/c/a.cpp")) := by
  intro t s
  have hwf : t.WellFormed := .of_entries (by decide +kernel)
  have hempty : ∀ name, t.get? ((["d"] : Location) ++ [name]) = none := fun name =>
    FileTree.get?_eq_none (by simp) (by simp [t])
  have hmaster : t.follow s.masterPath = .ok ["m"] := by rfl
  have hcompared : t.follow s.comparedPath = .ok ["c"] := by rfl
  have hseparate : s.Separate t ["m"] ["d"] := by
    refine ⟨by rfl, by rfl, hempty, by decide, fun names hnames name => ⟨?_, ?_⟩⟩
    · exact landing_ne_of_linkFreeBelow hwf (by decide) hmaster (by rfl) (.of_entries (by simp [t])) hempty
        (by decide) hnames name
    · exact landing_ne_of_linkFreeBelow hwf (by decide) hcompared (by rfl) (.of_entries (by simp [t])) hempty
        (by decide) hnames name
  exact ⟨⟨hwf, by rfl, hseparate, hcompared, by decide⟩, by decide +kernel⟩

end ComparisonSettings

end GenScope
