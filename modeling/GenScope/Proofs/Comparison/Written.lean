import GenScope.Proofs.Comparison.Confined
import GenScope.Proofs.FileTree.Overlay
import GenScope.Proofs.FileTree.Unseen

/-!
# What a comparison writes

A report writes an output file, a copy of the master version and, if it is there, a copy of the
compared one (`writesOf`). After any number of files the diff folder holds, under each name but those
that diff programs write, what was written last under it by the reports so far, and the rest of the
tree is as it was (`ComparisonProgress.Written`). Every file that is visited keeps this
(`Written.visitFile`), and so does a completed run (`ComparisonSettings.Places.run`).
-/

namespace GenScope

open FileTree (Overlay)

/-! ### Names in the folder -/

theorem Text.not_mem_substitute {old new : Char} (h : new ≠ old) (s : Text) : old ∉ substitute old new s := by
  intro hm
  obtain ⟨c, -, hc⟩ := List.mem_map.1 hm
  by_cases hco : c = old
  · simp [hco, h] at hc
  · simp [hco] at hc

theorem isEntryName_of_suffix {name : Text} (hslash : '/' ∉ name)
    (h : (".cpp" : Text) <:+ name ∨ (".h" : Text) <:+ name) : IsEntryName name := by
  have hlong : 2 ≤ name.length ∧ name ≠ ['.', '.'] := by
    rcases h with h | h
    · have := h.length_le
      exact ⟨le_trans (by decide) this, by rintro rfl; exact absurd h (by decide)⟩
    · have := h.length_le
      exact ⟨le_trans (by decide) this, by rintro rfl; exact absurd h (by decide)⟩
  refine ⟨?_, hslash, ?_, hlong.2⟩
  · rintro rfl; exact absurd hlong.1 (by decide)
  · rintro rfl; exact absurd hlong.1 (by decide)

theorem isEntryName_append {lead name : Text} (hlead : 3 ≤ lead.length ∧ '/' ∉ lead) (hslash : '/' ∉ name) :
    IsEntryName (lead ++ name) := by
  have hlen : 3 ≤ (lead ++ name).length := by rw [List.length_append]; omega
  refine ⟨?_, by simp [hlead.2, hslash], ?_, ?_⟩ <;> (intro h; rw [h] at hlen; exact absurd hlen (by decide))

theorem isShortName_append {lead lead' name : Text} (hlead : (Utf8.encode lead').length ≤ (Utf8.encode lead).length)
    (h : FileTree.isShortName (lead ++ name) = true) : FileTree.isShortName (lead' ++ name) = true := by
  simp only [FileTree.isShortName, Utf8.encode, List.flatMap_append, List.length_append, decide_eq_true_eq] at h hlead ⊢
  omega

namespace FileDifference

variable {d : FileDifference} {names : List Text} {root : Location}

theorem slash_not_mem_flatName (d : FileDifference) : '/' ∉ d.flatName :=
  Text.not_mem_substitute (by decide) _

theorem isEntryName_flatName (hpath : d.relativePath = Path.toText ⟨.relative, names⟩) (hne : names ≠ [])
    (hcpp : isCppFile ((⟨.top, root⟩ : Path).below names) = true) : IsEntryName d.flatName := by
  obtain ⟨dir, name, rfl⟩ : ∃ dir name, names = dir ++ [name] :=
    ⟨names.dropLast, names.getLast hne, (List.dropLast_append_getLast hne).symm⟩
  have hname : ((⟨.top, root⟩ : Path).below (dir ++ [name])).name = name := by
    simp [Path.name, Path.below, List.getLastD_eq_getLast?]
  have hjoin : name <:+ d.relativePath := by
    have htext : Path.toText ⟨.relative, dir ++ [name]⟩ = Text.join "/" (dir ++ [name]) := by
      cases dir <;> rfl
    have hcut := Text.join_append_append "/" dir [] name
    exact ⟨_, (hpath.trans (htext.trans hcut)).symm⟩
  have hext : ∀ e : Text, '/' ∉ e → e <:+ name → e <:+ d.flatName := by
    rintro e he ⟨u, rfl⟩
    obtain ⟨v, hv⟩ := hjoin
    refine ⟨Text.substitute '/' '_' (v ++ u), ?_⟩
    rw [flatName, ← hv, ← List.append_assoc, Text.substitute_append _ _ (v ++ u), Text.substitute_of_not_mem he]
  refine isEntryName_of_suffix d.slash_not_mem_flatName ?_
  rw [isCppFile, hname, Bool.or_eq_true] at hcpp
  rcases hcpp with h | h
  · exact .inl (hext _ (by decide) (Text.endsWith_iff.1 h))
  · exact .inr (hext _ (by decide) (Text.endsWith_iff.1 h))

end FileDifference

namespace ComparisonSettings

/-! ### What a report writes -/

def masterFile (s : ComparisonSettings) (d : FileDifference) : Path :=
  s.masterPath.join (Path.ofText d.relativePath)

def comparedFile (s : ComparisonSettings) (d : FileDifference) : Path :=
  s.comparedPath.join (Path.ofText d.relativePath)

def masterContent (s : ComparisonSettings) (t : FileTree) (d : FileDifference) : Option Bytes :=
  (t.read (s.masterFile d)).toOption

def comparedContent (s : ComparisonSettings) (t : FileTree) (d : FileDifference) : Option Bytes :=
  (t.read (s.comparedFile d)).toOption

/-- What a report writes into the diff folder, in order. -/
def writesOf (s : ComparisonSettings) (t : FileTree) (d : FileDifference) : List (Text × Bytes) :=
  (d.flatName, []) ::
    (((s.masterContent t d).map fun content => ("master_" ++ d.flatName, content)).toList ++
      ((s.comparedContent t d).map fun content => ("cmp_" ++ d.flatName, content)).toList)

/-- The three directories are there, and the diff folder is empty and in neither tree. -/
structure Places (s : ComparisonSettings) (t : FileTree) (master compared diff : Location) : Prop where
  wellFormed : t.WellFormed
  linkFree : t.LinkFree
  masterPath : s.masterPath = ⟨.top, master⟩
  comparedPath : s.comparedPath = ⟨.top, compared⟩
  diffPath : s.diffPath = ⟨.top, diff⟩
  master_dir : t.get? master = some .directory
  compared_dir : t.get? compared = some .directory
  diff_dir : t.get? diff = some .directory
  empty : ∀ name, t.get? (diff ++ [name]) = none
  master_outside : ¬ master <+: diff
  compared_outside : ¬ compared <+: diff

variable {s : ComparisonSettings} {t : FileTree} {master compared diff : Location}

theorem below_ne {root : Location} {e : Entry} (hroot : t.get? root = some e)
    (hempty : ∀ name, t.get? (diff ++ [name]) = none) (hout : ¬ root <+: diff) (names : List Text) (name : Text) :
    root ++ names ≠ diff ++ [name] := by
  intro h
  rcases List.eq_nil_or_concat names with rfl | ⟨dir, last, rfl⟩
  · rw [List.append_nil] at h
    rw [h, hempty name] at hroot
    cases hroot
  · rw [List.concat_eq_append, ← List.append_assoc] at h
    exact hout ⟨dir, (List.append_inj' h rfl).1⟩

/-- A report is about a file of the master tree, given by the names below it. -/
structure IsReport (s : ComparisonSettings) (t : FileTree) (master : Location) (names : List Text)
    (d : FileDifference) : Prop where
  path : d.relativePath = Path.toText ⟨.relative, names⟩
  ne_nil : names ≠ []
  there : ∃ e, t.get? (master ++ names) = some e
  cpp : isCppFile (s.masterPath.below names) = true

namespace IsReport

variable {names : List Text} {d : FileDifference}

theorem entryNames (h : IsReport s t master names d) (hp : Places s t master compared diff) :
    ∀ name ∈ names, IsEntryName name := by
  obtain ⟨e, hget⟩ := h.there
  exact fun name hname => hp.wellFormed.names hget name (by simp [hname])

theorem masterFile_eq (h : IsReport s t master names d) (hp : Places s t master compared diff) :
    s.masterFile d = ⟨.top, master ++ names⟩ := by
  rw [masterFile, h.path, Path.ofText_toText_relative (h.entryNames hp), hp.masterPath]
  rfl

theorem comparedFile_eq (h : IsReport s t master names d) (hp : Places s t master compared diff) :
    s.comparedFile d = ⟨.top, compared ++ names⟩ := by
  rw [comparedFile, h.path, Path.ofText_toText_relative (h.entryNames hp), hp.comparedPath]
  rfl

theorem dots_not_mem (h : IsReport s t master names d) (hp : Places s t master compared diff)
    {root : Location} (hroot : t.get? root = some .directory) : ['.', '.'] ∉ root ++ names :=
  hp.wellFormed.dots_not_mem_append hroot (h.entryNames hp)

theorem masterContent_eq_some_iff (h : IsReport s t master names d) (hp : Places s t master compared diff)
    {content : Bytes} : s.masterContent t d = some content ↔ t.get? (master ++ names) = some (.file content) := by
  rw [masterContent, h.masterFile_eq hp,
    ← hp.wellFormed.read_top_iff hp.linkFree (h.dots_not_mem hp hp.master_dir)]
  cases t.read ⟨.top, master ++ names⟩ <;> simp [Except.toOption]

theorem comparedContent_eq_some_iff (h : IsReport s t master names d) (hp : Places s t master compared diff)
    {content : Bytes} :
    s.comparedContent t d = some content ↔ t.get? (compared ++ names) = some (.file content) := by
  rw [comparedContent, h.comparedFile_eq hp,
    ← hp.wellFormed.read_top_iff hp.linkFree (h.dots_not_mem hp hp.compared_dir)]
  cases t.read ⟨.top, compared ++ names⟩ <;> simp [Except.toOption]

end IsReport

/-- Both versions were copied, the compared one if there is something at its path. -/
def IsCopied (s : ComparisonSettings) (t : FileTree) (d : FileDifference) : Prop :=
  (s.masterContent t d).isSome = true ∧
    (t.pathExists (s.comparedFile d) = true → (s.comparedContent t d).isSome = true)

end ComparisonSettings

/-! ### Steps -/

namespace DiffFolder

variable {s : ComparisonSettings} {t : FileTree} {master compared diff : Location} {names : List Text}
  {d : FileDifference} {writes reports : List (Text × Bytes)} {program : DiffProgram} {f f' : DiffFolder}
  {loc : Location} {name : Text}

open ComparisonSettings

/-- What the jobs write by the next moment. -/
def leftBy (f : DiffFolder) (program : DiffProgram) : List (Text × Bytes) :=
  f.jobs.filterMap fun job => (program.writes f.moment job).map fun content => (job.output, content)

/-- The folder holds what was written last under each name, by one of the writes or by a job. -/
structure Holds (t : FileTree) (diff : Location) (reports : List (Text × Bytes)) (f : DiffFolder) : Prop where
  overlay : ∃ writes, Overlay t diff writes f.tree ∧
    ∀ name, (∀ job ∈ f.jobs, job.output ≠ name) → lastWrite name writes = lastWrite name reports
  outputs : ∀ job ∈ f.jobs, IsEntryName job.output ∧ FileTree.isShortName job.output = true

theorem mem_leftBy {w : Text × Bytes} : w ∈ f.leftBy program ↔
    ∃ job ∈ f.jobs, job.output = w.1 ∧ program.writes f.moment job = some w.2 := by
  rw [leftBy, List.mem_filterMap]
  refine exists_congr fun job => and_congr_right fun _ => ?_
  rw [Option.map_eq_some_iff]
  constructor
  · rintro ⟨content, hwrites, rfl⟩
    exact ⟨rfl, hwrites⟩
  · rintro ⟨hname, hwrites⟩
    exact ⟨w.2, hwrites, Prod.ext hname rfl⟩

theorem proceed_overlay (hp : Places s t master compared diff) (h : Overlay t diff writes f.tree)
    (houtputs : ∀ job ∈ f.jobs, IsEntryName job.output ∧ FileTree.isShortName job.output = true) :
    Overlay t diff (writes ++ f.leftBy program) (f.proceed s.diffPath program).tree := by
  have hall : ∀ (jobs : List DiffJob) (u : FileTree) (writes : List (Text × Bytes)), jobs ⊆ f.jobs →
      Overlay t diff writes u →
      Overlay t diff (writes ++ jobs.filterMap fun job =>
        (program.writes f.moment job).map fun content => (job.output, content))
        (jobs.foldl (program.leave s.diffPath f.moment) u) := by
    intro jobs
    induction jobs with
    | nil => exact fun u writes _ hu => by simpa using hu
    | cons job jobs ih =>
      intro u writes hsub hu
      rw [List.cons_subset] at hsub
      obtain ⟨hname, hshort⟩ := houtputs job hsub.1
      have houtput : s.diffPath.child job.output = ⟨.top, diff ++ [job.output]⟩ := by rw [hp.diffPath]; rfl
      rw [List.foldl_cons, DiffProgram.leave]
      cases hwrites : program.writes f.moment job with
      | none => simpa [hwrites] using ih u writes hsub.2 hu
      | some content =>
        obtain ⟨t', hwrite, hover⟩ := hu.write hp.diff_dir hname hshort content
        simpa [hwrites, houtput, hwrite] using ih t' _ hsub.2 hover
  exact hall f.jobs f.tree writes (List.Subset.refl _) h

theorem read_iff_of_overlay (hp : Places s t master compared diff) (h : Overlay t diff writes f.tree)
    (hname : IsEntryName name) {bytes : Bytes} :
    f.tree.read (s.diffPath.child name) = .ok bytes ↔ lastWrite name writes = some bytes := by
  have hpath : s.diffPath.child name = ⟨.top, diff ++ [name]⟩ := by rw [hp.diffPath]; rfl
  have hdots : ['.', '.'] ∉ diff ++ [name] :=
    hp.wellFormed.dots_not_mem_append hp.diff_dir (by simpa using hname)
  rw [hpath, h.wellFormed.read_top_iff h.linkFree hdots, h.inside]
  simp

namespace Holds

theorem start (hp : Places s t master compared diff) : Holds t diff [] ⟨t, [], 0⟩ :=
  ⟨⟨[], .start hp.wellFormed hp.linkFree hp.empty, fun _ _ => rfl⟩, by simp⟩

theorem proceed (h : f.Holds t diff reports) (hp : Places s t master compared diff) (program : DiffProgram) :
    (f.proceed s.diffPath program).Holds t diff reports := by
  obtain ⟨⟨writes, hover, hlast⟩, houtputs⟩ := h
  refine ⟨⟨_, proceed_overlay hp hover houtputs, fun name hname => ?_⟩, houtputs⟩
  have hleft : lastWrite name (f.leftBy program) = none := by
    refine lastWrite_eq_none fun w hw => ?_
    obtain ⟨job, hjob, houtput, -⟩ := mem_leftBy.1 hw
    exact houtput ▸ hname job hjob
  rw [lastWrite_append, hleft, Option.none_or]
  exact hlast name hname

/-- What is read under a name that no job writes is what was written last under it. -/
theorem read_iff (h : f.Holds t diff reports) (hp : Places s t master compared diff) (hname : IsEntryName name)
    (hjobs : ∀ job ∈ f.jobs, job.output ≠ name) {bytes : Bytes} :
    f.tree.read (s.diffPath.child name) = .ok bytes ↔ lastWrite name reports = some bytes := by
  obtain ⟨writes, hover, hlast⟩ := h.overlay
  rw [read_iff_of_overlay hp hover hname, hlast name hjobs]

theorem read_proceed (h : f.Holds t diff reports) (hp : Places s t master compared diff) {job : DiffJob}
    (hjob : job ∈ f.jobs) (program : DiffProgram) (content : Bytes)
    (hwrites : ∀ moment job, program.writes moment job = some content) :
    (f.proceed s.diffPath program).tree.read (s.diffPath.child job.output) = .ok content := by
  obtain ⟨⟨writes, hover, -⟩, houtputs⟩ := h
  rw [read_iff_of_overlay hp (proceed_overlay hp hover houtputs) (houtputs job hjob).1, lastWrite_append]
  have hleft : lastWrite job.output (f.leftBy program) = some content := by
    refine lastWrite_of_forall (fun w hw => ?_)
      ⟨(job.output, content), mem_leftBy.2 ⟨job, hjob, rfl, hwrites _ _⟩, rfl⟩
    obtain ⟨other, -, -, hcontent⟩ := mem_leftBy.1 hw
    exact Option.some.inj (hcontent.symm.trans (hwrites _ _))
  rw [hleft, Option.some_or]

theorem startJob (h : f.Holds t diff reports) (hp : Places s t master compared diff) (program : DiffProgram)
    {job : DiffJob} (hname : IsEntryName job.output) (hshort : FileTree.isShortName job.output = true) :
    (f.startJob s.diffPath program job).value.Holds t diff (reports ++ [(job.output, [])]) ∧
      (f.startJob s.diffPath program job).value.jobs = f.jobs ++ if program.canStart then [job] else [] := by
  obtain ⟨⟨writes, hover, hlast⟩, houtputs⟩ := h
  obtain ⟨u, hwrite, hover⟩ := hover.write hp.diff_dir hname hshort []
  have houtput : s.diffPath.child job.output = ⟨.top, diff ++ [job.output]⟩ := by rw [hp.diffPath]; rfl
  have hsame : ∀ name, (∀ job ∈ f.jobs, job.output ≠ name) →
      lastWrite name (writes ++ [(job.output, [])]) = lastWrite name (reports ++ [(job.output, [])]) := by
    intro name hname
    rw [lastWrite_append, lastWrite_append, hlast name hname]
  rw [DiffFolder.startJob, houtput, hwrite]
  cases program.canStart with
  | false => exact ⟨⟨⟨_, hover, hsame⟩, houtputs⟩, (List.append_nil _).symm⟩
  | true =>
    refine ⟨⟨⟨_, hover, fun name hname => hsame name fun job hjob => ?_⟩, fun other hother => ?_⟩, rfl⟩
    · exact hname job (List.mem_append_left _ hjob)
    · rcases List.mem_append.1 hother with hother | hother
      · exact houtputs other hother
      · rw [List.mem_singleton.1 hother]
        exact ⟨hname, hshort⟩

theorem isShortName_of_landing (h : Overlay t diff writes f.tree) (hp : Places s t master compared diff)
    (hname : IsEntryName name) (hland : f.tree.landing (s.diffPath.child name) = .ok loc) :
    FileTree.isShortName name = true := by
  have hdir : f.tree.get? diff = some .directory := h.get?_dir.trans hp.diff_dir
  have hfollow : f.tree.follow s.diffPath = .ok diff := by
    rw [hp.diffPath]
    exact h.wellFormed.follow_top h.linkFree hdir
  exact FileTree.isShortName_of_landing_child hfollow hdir hname.dots hland

theorem startJob_of_long (h : f.Holds t diff reports) (hp : Places s t master compared diff) {job : DiffJob}
    (hname : IsEntryName job.output) (hlong : FileTree.isShortName job.output = false) :
    (f.startJob s.diffPath program job).value = f := by
  obtain ⟨⟨writes, hover, -⟩, -⟩ := h
  unfold DiffFolder.startJob
  dsimp only
  split
  · rfl
  · rename_i u hwrite
    obtain ⟨loc, hland, -⟩ := FileTree.of_write_eq_ok hwrite
    rw [isShortName_of_landing hover hp hname hland] at hlong
    cases hlong

theorem addCopy (h : f.Holds t diff reports) (hp : Places s t master compared diff) (hname : IsEntryName name)
    (hdots : ['.', '.'] ∉ loc) (hloc : ∀ name, loc ≠ diff ++ [name])
    (hcopy : f.addCopy s.diffPath program ⟨.top, loc⟩ name = (f', none)) :
    FileTree.isShortName name = true ∧
      ∃ content, t.get? loc = some (.file content) ∧ f'.Holds t diff (reports ++ [(name, content)]) := by
  unfold DiffFolder.addCopy at hcopy
  obtain ⟨⟨writes, hover, hlast⟩, houtputs⟩ := h.proceed hp program
  generalize f.proceed s.diffPath program = g at hcopy hover hlast houtputs
  dsimp only at hcopy
  split at hcopy
  · rename_i u hcopied
    obtain ⟨rfl, -⟩ := Prod.mk.inj hcopy
    obtain ⟨⟨content, hread⟩, there, hland⟩ := FileTree.of_copy_eq_ok hcopied
    have hshort := isShortName_of_landing hover hp hname hland
    have hget : t.get? loc = some (.file content) := by
      rw [← hover.outside loc hloc]
      exact (hover.wellFormed.read_top_iff hover.linkFree hdots).1 hread
    obtain ⟨u', hcopied', hover'⟩ := hover.copy hp.diff_dir hname hshort hloc hget
    have htarget : s.diffPath.child name = ⟨.top, diff ++ [name]⟩ := by rw [hp.diffPath]; rfl
    rw [htarget, hcopied'] at hcopied
    obtain rfl := Except.ok.inj hcopied
    refine ⟨hshort, content, hget, ⟨⟨_, hover', fun other hother => ?_⟩, houtputs⟩⟩
    rw [lastWrite_append, lastWrite_append, hlast other hother]
  · cases hcopy

theorem addCompared (h : f.Holds t diff reports) (hp : Places s t master compared diff)
    (hd : IsReport s t master names d)
    (hadd : (match f.tree.probe ⟨.top, compared ++ names⟩ with
      | .error fault => (f, some (.unopened fault ⟨.top, compared ++ names⟩))
      | .ok none => (f, none)
      | .ok (some _) => f.addCopy s.diffPath program ⟨.top, compared ++ names⟩ ("cmp_" ++ d.flatName)) = (f', none)) :
    f'.Holds t diff (reports ++ ((s.comparedContent t d).map fun content => ("cmp_" ++ d.flatName, content)).toList) ∧
      (t.pathExists (s.comparedFile d) = true → (s.comparedContent t d).isSome = true) := by
  have hdots := hd.dots_not_mem hp hp.compared_dir
  have houtside := below_ne hp.compared_dir hp.empty hp.compared_outside names
  rw [hd.comparedFile_eq hp, hp.wellFormed.pathExists_top_iff hp.linkFree hdots]
  split at hadd
  · cases hadd
  · rename_i hgone
    obtain ⟨writes, hover, -⟩ := h.overlay
    have hnone : ¬ ∃ e, t.get? (compared ++ names) = some e := by
      rintro ⟨e, he⟩
      rw [FileTree.probe_eq_some_iff.2 ((hover.wellFormed.stat_top_iff hover.linkFree hdots).2
        ((hover.outside _ houtside).trans he))] at hgone
      cases hgone
    have hcontent : s.comparedContent t d = none := by
      cases hc : s.comparedContent t d with
      | none => rfl
      | some bytes => exact absurd ⟨_, (hd.comparedContent_eq_some_iff hp).1 hc⟩ hnone
    obtain ⟨rfl, -⟩ := Prod.mk.inj hadd
    rw [hcontent]
    exact ⟨by simpa using h, fun hthere => absurd hthere hnone⟩
  · obtain ⟨-, content, hget, hholds⟩ := h.addCopy hp (isEntryName_append (by decide) d.slash_not_mem_flatName)
      hdots houtside hadd
    rw [(hd.comparedContent_eq_some_iff hp).2 hget]
    exact ⟨hholds, fun _ => rfl⟩

theorem add (h : f.Holds t diff reports) (hp : Places s t master compared diff) (hd : IsReport s t master names d)
    (hadd : (f.add s.diffPath program
      ⟨s.masterPath.below names, s.comparedPath.below names, d.flatName⟩).value = (f', none)) :
    f'.Holds t diff (reports ++ s.writesOf t d) ∧ s.IsCopied t d ∧
      f'.jobs.map DiffJob.output = f.jobs.map DiffJob.output ++ if program.canStart then [d.flatName] else [] := by
  have hflat : IsEntryName d.flatName := by
    have hcpp := hd.cpp
    rw [hp.masterPath] at hcpp
    exact FileDifference.isEntryName_flatName hd.path hd.ne_nil hcpp
  have hmaster : s.masterPath.below names = ⟨.top, master ++ names⟩ := by rw [hp.masterPath]; rfl
  have hcompared : s.comparedPath.below names = ⟨.top, compared ++ names⟩ := by rw [hp.comparedPath]; rfl
  rw [hmaster, hcompared] at hadd
  let job : DiffJob := ⟨⟨.top, master ++ names⟩, ⟨.top, compared ++ names⟩, d.flatName⟩
  have hadd : (f.startJob s.diffPath program job).value.addCopies s.diffPath program job = (f', none) := hadd
  have hname : IsEntryName ("master_" ++ d.flatName) := isEntryName_append (by decide) d.slash_not_mem_flatName
  have hdots := hd.dots_not_mem hp hp.master_dir
  have houtside := below_ne hp.master_dir hp.empty hp.master_outside names
  have hjobs : f'.jobs = (f.startJob s.diffPath program job).value.jobs := by
    rw [show f' = (f', (none : Option CopyFault)).1 from rfl, ← hadd, addCopies_jobs]
  unfold addCopies at hadd
  split at hadd
  · cases hadd
  rename_i g hfirst
  cases hshort : FileTree.isShortName d.flatName with
  | false =>
    -- then the name of the copy is too long as well
    rw [h.startJob_of_long hp hflat hshort] at hfirst
    have hlong : FileTree.isShortName ([] ++ d.flatName) = true :=
      isShortName_append (by decide) (h.addCopy hp hname hdots houtside hfirst).1
    rw [List.nil_append, hshort] at hlong
    cases hlong
  | true =>
    have houtput : IsEntryName job.output := hflat
    obtain ⟨hstart, hstarted⟩ := h.startJob hp program houtput hshort
    obtain ⟨-, content, hget, hg⟩ := hstart.addCopy hp hname hdots houtside hfirst
    obtain ⟨hholds, hthere⟩ := hg.addCompared hp hd hadd
    have hcontent := (hd.masterContent_eq_some_iff hp).2 hget
    have hwrites : s.writesOf t d = (d.flatName, []) :: ("master_" ++ d.flatName, content) ::
        ((s.comparedContent t d).map fun content => ("cmp_" ++ d.flatName, content)).toList := by
      rw [writesOf, hcontent]; rfl
    refine ⟨?_, ⟨by rw [hcontent]; rfl, hthere⟩, ?_⟩
    · rw [hwrites]
      simpa using hholds
    · rw [hjobs, hstarted, List.map_append]
      cases program.canStart <;> rfl

end Holds

end DiffFolder

/-! ### Runs -/

namespace ComparisonProgress

variable {s : ComparisonSettings} {t : FileTree} {master compared diff : Location} {names : List Text}
  {d : FileDifference} {p q : ComparisonProgress} {program : DiffProgram}

open ComparisonSettings

/-- The diff folder holds what the reports have written, each of them about a file of the master
tree whose versions were copied, and a job was started for each if the program is there. -/
structure Written (s : ComparisonSettings) (t : FileTree) (program : DiffProgram) (master diff : Location)
    (p : ComparisonProgress) : Prop where
  holds : p.folder.Holds t diff ((p.reported s).flatMap (s.writesOf t))
  report : ∀ d ∈ p.reported s, (∃ names, IsReport s t master names d) ∧ s.IsCopied t d
  jobs : p.folder.jobs.map DiffJob.output =
    if program.canStart then (p.reported s).map FileDifference.flatName else []

namespace Written

theorem start (hp : Places s t master compared diff) :
    (ComparisonProgress.start t).Written s t program master diff :=
  ⟨.start hp, by simp [ComparisonProgress.start, reported], by simp [ComparisonProgress.start, reported]⟩

theorem proceed (h : p.Written s t program master diff) (hp : Places s t master compared diff) :
    (p.proceed s program).Written s t program master diff :=
  ⟨h.holds.proceed hp program, h.report, h.jobs⟩

theorem note (h : p.Written s t program master diff) (hp : Places s t master compared diff)
    (hd : IsReport s t master names d) (hnote : (p.note s program names d).value = (q, none)) :
    q.Written s t program master diff := by
  rcases (note_cases hnote).2 with ⟨-, hreported, hadd⟩ | ⟨-, hreported, hfolder, -⟩
  · obtain ⟨hholds, hcopied, hjobs⟩ := h.holds.add hp hd hadd
    refine ⟨?_, fun e he => ?_, ?_⟩
    · rw [hreported, List.flatMap_append]
      simpa using hholds
    · rw [hreported] at he
      rcases List.mem_append.1 he with he | he
      · exact h.report e he
      · rw [List.mem_singleton.1 he]
        exact ⟨⟨names, hd⟩, hcopied⟩
    · rw [hreported, hjobs, h.jobs]
      cases program.canStart <;> simp
  · exact ⟨by rw [hreported, hfolder]; exact h.holds, by rw [hreported]; exact h.report,
      by rw [hreported, hfolder]; exact h.jobs⟩

theorem withTotal (h : p.Written s t program master diff) (total : Nat) :
    ({ p with total } : ComparisonProgress).Written s t program master diff :=
  ⟨h.holds, h.report, h.jobs⟩

theorem visitFile (h : p.Written s t program master diff) (hp : Places s t master compared diff)
    (hne : names ≠ []) (hthere : ∃ e, t.get? (master ++ names) = some e)
    (hvisit : (p.visitFile s program names).value = (q, none)) : q.Written s t program master diff := by
  have hproceed := h.proceed hp
  unfold ComparisonProgress.visitFile at hvisit
  dsimp only at hvisit
  split at hvisit
  · rename_i hcpp
    split at hvisit
    · rename_i d hd
      exact (hproceed.withTotal _).note hp ⟨relativePath_of_differenceAt hd, hne, hthere, hcpp⟩ hvisit
    · obtain ⟨rfl, -⟩ := Prod.mk.inj hvisit
      exact hproceed.withTotal _
  · obtain ⟨rfl, -⟩ := Prod.mk.inj hvisit
    exact hproceed

end Written

end ComparisonProgress

/-- A run that has visited all files leaves in the diff folder what its reports have written. The files
of a directory are listed in the tree as it is by then; in the master tree that is no other than before. -/
theorem ComparisonSettings.Places.visitAll {s : ComparisonSettings} {t : FileTree} {master compared diff : Location}
    (hp : s.Places t master compared diff) {program : DiffProgram} (hnone : (s.visitAll t program).value.2 = none) :
    (s.visitAll t program).value.1.Written s t program master diff := by
  have hall : (s.visitAll t program).value.2 = none →
      (s.visitAll t program).value.1.Written s t program master diff := by
    refine visitAll_induction
      (P := fun x : ComparisonProgress × Option CopyFault => x.2 = none → x.1.Written s t program master diff)
      (Q := fun names => names ≠ [] ∧ ∃ e, t.get? (master ++ names) = some e)
      (fun _ => .start hp) ?_ ?_
    · intro p root dir name hroot h hname
      rw [hp.masterPath, hp.wellFormed.follow_top hp.linkFree hp.master_dir] at hroot
      obtain rfl := Except.ok.inj hroot
      obtain ⟨writes, hover, -⟩ := (h rfl).holds.overlay
      obtain ⟨e, hget, -⟩ := FileTree.mem_filesIn_iff.1 hname
      refine ⟨by simp, e, ?_⟩
      rw [← hover.outside _ (below_ne hp.master_dir hp.empty hp.master_outside _), ← hget, List.append_assoc]
    · intro p names hnames h hfault
      exact (h rfl).visitFile hp hnames.1 hnames.2 (Prod.ext rfl hfault)
  exact hall hnone

end GenScope
