import GenScope.Proofs.Comparison.Visit
import GenScope.Proofs.FileTree.Frame
import GenScope.Proofs.Settings.Directory

/-!
# What a comparison leaves alone

Nothing relates the diff folder to the two trees, so that a comparison can write over the files that
it compares. It writes to the outputs of its reports alone (`IsOutput`): after any number of files
the tree is the one before, with files written where an output leads (`Confined`). A file that no
output leads to is therefore kept, whether the run ends or breaks off (`inputs_kept`).
-/

namespace GenScope

open FileTree (Extends WrittenAt)

namespace ComparisonSettings

/-- The paths that a report writes to: its output file, the copy of the master version and, if there
is a compared version, the copy of that one. -/
inductive IsOutput (s : ComparisonSettings) (left : FileTree) (d : FileDifference) : Path → Prop
  | output : IsOutput s left d (s.diffPath.child d.flatName)
  | master : IsOutput s left d (s.diffPath.child ("master_" ++ d.flatName))
  | compared {names : List Text} : d.relativePath = Path.toText ⟨.relative, names⟩ →
      left.pathExists (s.comparedPath.below names) = true →
      IsOutput s left d (s.diffPath.child ("cmp_" ++ d.flatName))

/-- A file written to an output of one of the reports comes to lie there. -/
def IsOutputPlace (s : ComparisonSettings) (t left : FileTree) (ds : List FileDifference) (loc : Location) : Prop :=
  ∃ d ∈ ds, ∃ q, s.IsOutput left d q ∧ t.Receives q loc

variable {s : ComparisonSettings} {t left left' : FileTree} {ds ds' : List FileDifference}

theorem IsOutputPlace.mono {loc : Location} (h : s.IsOutputPlace t left ds loc) (htree : Extends left left')
    (hsub : ds ⊆ ds') : s.IsOutputPlace t left' ds' loc := by
  obtain ⟨d, hd, q, hq, hland⟩ := h
  refine ⟨d, hsub hd, q, ?_, hland⟩
  cases hq with
  | output => exact .output
  | master => exact .master
  | compared hpath hexists => exact .compared hpath (htree.pathExists hexists)

end ComparisonSettings

/-! ### Steps -/

section Steps

variable {s : ComparisonSettings} {t : FileTree} {names : List Text} {d : FileDifference} {program : DiffProgram}

theorem DiffProgram.leave_writtenAt {u : FileTree} {root : Path} (h : Extends t u) (hwf : t.WellFormed)
    (hroot : root.anchor ≠ .relative) (program : DiffProgram) (moment : Nat) (job : DiffJob) :
    WrittenAt u (t.Receives (root.child job.output)) (program.leave root moment u job) := by
  unfold leave
  split
  · exact .refl _ _
  · split
    · exact h.write hwf (p := root.child job.output) hroot ‹_›
    · exact .refl _ _

namespace DiffFolder

variable {f f' : DiffFolder} {root : Path} {places : Location → Prop} {fault : Option CopyFault}

/-- What the jobs write comes to lie at these places. -/
def JobsWriteAt (t : FileTree) (root : Path) (places : Location → Prop) (f : DiffFolder) : Prop :=
  ∀ job ∈ f.jobs, ∀ loc, t.Receives (root.child job.output) loc → places loc

theorem proceed_writtenAt (program : DiffProgram) (h : Extends t f.tree) (hwf : t.WellFormed)
    (hroot : root.anchor ≠ .relative) (hjobs : f.JobsWriteAt t root places) : WrittenAt f.tree places (f.proceed root program).tree := by
  have hall : ∀ (jobs : List DiffJob) (u : FileTree), Extends t u → jobs ⊆ f.jobs →
      WrittenAt u places (jobs.foldl (program.leave root f.moment) u) := by
    intro jobs
    induction jobs with
    | nil => exact fun u _ _ => .refl u _
    | cons job jobs ih =>
      intro u hu hsub
      rw [List.cons_subset] at hsub
      have hleave := DiffProgram.leave_writtenAt hu hwf hroot program f.moment job
      exact (hleave.mono (hjobs job hsub.1)).trans (ih _ (hu.trans hleave.toExtends) hsub.2)
  exact hall f.jobs f.tree h (List.Subset.refl _)

theorem startJob_writtenAt (h : Extends t f.tree) (hwf : t.WellFormed) (hroot : root.anchor ≠ .relative)
    (program : DiffProgram) (job : DiffJob) :
    WrittenAt f.tree (t.Receives (root.child job.output)) (f.startJob root program job).value.tree := by
  unfold startJob
  dsimp only
  split
  · exact .refl _ _
  · rename_i u hw
    have hwritten := h.write hwf (p := root.child job.output) hroot hw
    split <;> exact hwritten

theorem mem_jobs_startJob {job other : DiffJob} (hjob : other ∈ (f.startJob root program job).value.jobs) :
    other ∈ f.jobs ∨ other = job := by
  unfold startJob at hjob
  dsimp only at hjob
  split at hjob
  · exact .inl hjob
  · split at hjob
    · simpa [pure, Logged.pure] using hjob
    · exact .inl hjob

@[simp] theorem addCopy_jobs {source : Path} {name : Text} : (f.addCopy root program source name).1.jobs = f.jobs := by
  unfold addCopy
  dsimp only
  split <;> rfl

@[simp] theorem addCopies_jobs {job : DiffJob} : (f.addCopies root program job).1.jobs = f.jobs := by
  unfold addCopies
  rcases hcopy : f.addCopy root program job.master ("master_" ++ job.output) with ⟨g, fault | fault⟩
  · have hjobs : g.jobs = f.jobs := by rw [← addCopy_jobs (f := f), hcopy]
    dsimp only
    split <;> simp [hjobs]
  · rw [← addCopy_jobs (f := f), hcopy]

theorem addCopy_writtenAt {source : Path} {name : Text} (h : Extends t f.tree) (hwf : t.WellFormed)
    (hroot : root.anchor ≠ .relative) (hjobs : f.JobsWriteAt t root places)
    (hname : ∀ loc, t.Receives (root.child name) loc → places loc)
    (hcopy : f.addCopy root program source name = (f', fault)) : WrittenAt f.tree places f'.tree := by
  have hproceed : WrittenAt f.tree places (f.proceed root program).tree := proceed_writtenAt program h hwf hroot hjobs
  unfold addCopy at hcopy
  dsimp only at hcopy
  split at hcopy
  · obtain ⟨rfl, -⟩ := Prod.mk.inj hcopy
    have hwritten := (h.trans hproceed.toExtends).copy hwf (p := root.child name) hroot ‹_›
    exact hproceed.trans (hwritten.mono hname)
  · obtain ⟨rfl, -⟩ := Prod.mk.inj hcopy
    exact hproceed

/-- The compared version is copied only if it is there, and then it still is. -/
theorem addCopies_writtenAt {job : DiffJob} (h : Extends t f.tree) (hwf : t.WellFormed)
    (hroot : root.anchor ≠ .relative) (hjobs : f.JobsWriteAt t root places)
    (hmaster : ∀ loc, t.Receives (root.child ("master_" ++ job.output)) loc → places loc)
    (hcompared : f'.tree.pathExists job.compared = true →
      ∀ loc, t.Receives (root.child ("cmp_" ++ job.output)) loc → places loc)
    (hadd : f.addCopies root program job = (f', fault)) : WrittenAt f.tree places f'.tree := by
  unfold addCopies at hadd
  rcases hcopy : f.addCopy root program job.master ("master_" ++ job.output) with ⟨g, fault' | fault'⟩
  · have hfirst := addCopy_writtenAt h hwf hroot hjobs hmaster hcopy
    have hkept : g.jobs = f.jobs := by rw [← addCopy_jobs (f := f), hcopy]
    rw [hcopy] at hadd
    dsimp only at hadd
    split at hadd
    · obtain ⟨rfl, -⟩ := Prod.mk.inj hadd
      exact hfirst
    · obtain ⟨rfl, -⟩ := Prod.mk.inj hadd
      exact hfirst
    · rename_i e hprobe
      have hexists : g.tree.pathExists job.compared = true := by
        rw [FileTree.pathExists, FileTree.probe_eq_some_iff.1 hprobe]
        rfl
      have hg := h.trans hfirst.toExtends
      -- the copy of the compared version leaves it in place, wherever that copy comes to lie
      have hafter : WrittenAt g.tree (fun _ => True) f'.tree :=
        addCopy_writtenAt hg hwf hroot (fun _ _ _ _ => trivial) (fun _ _ => trivial) hadd
      exact hfirst.trans (addCopy_writtenAt hg hwf hroot (fun job hjob => hjobs job (hkept ▸ hjob))
        (hcompared (hafter.pathExists hexists)) hadd)
  · rw [hcopy] at hadd
    obtain ⟨rfl, -⟩ := Prod.mk.inj hadd
    exact addCopy_writtenAt h hwf hroot hjobs hmaster hcopy

theorem add_writtenAt (h : Extends t f.tree) (hwf : t.WellFormed) (hroot : s.diffPath.anchor ≠ .relative)
    (hd : d.relativePath = Path.toText ⟨.relative, names⟩)
    (hjobs : f.JobsWriteAt t s.diffPath places) (hplaces : ∀ loc, s.IsOutputPlace t f'.tree [d] loc → places loc)
    (hadd : (f.add s.diffPath program
      ⟨s.masterPath.below names, s.comparedPath.below names, d.flatName⟩).value = (f', fault)) :
    WrittenAt f.tree places f'.tree ∧ ∀ job ∈ f'.jobs, job ∈ f.jobs ∨ job.output = d.flatName := by
  let job : DiffJob := ⟨s.masterPath.below names, s.comparedPath.below names, d.flatName⟩
  have houtput : ∀ q, s.IsOutput f'.tree d q → ∀ loc, t.Receives q loc → places loc :=
    fun q hq loc hloc => hplaces loc ⟨d, by simp, q, hq, hloc⟩
  have hstart := (startJob_writtenAt h hwf hroot program job).mono (houtput _ .output)
  have hstarted : (f.startJob s.diffPath program job).value.JobsWriteAt t s.diffPath places := by
    intro other hother
    rcases mem_jobs_startJob hother with hother | rfl
    · exact hjobs other hother
    · exact houtput _ .output
  have hadd : (f.startJob s.diffPath program job).value.addCopies s.diffPath program job = (f', fault) := hadd
  have hcopies := addCopies_writtenAt (h.trans hstart.toExtends) hwf hroot hstarted (houtput _ .master)
    (fun hexists => houtput _ (.compared hd hexists)) hadd
  refine ⟨hstart.trans hcopies, fun other hother => ?_⟩
  rw [show f' = (f', fault).1 from rfl, ← hadd, addCopies_jobs] at hother
  rcases mem_jobs_startJob hother with hother | rfl
  · exact .inl hother
  · exact .inr rfl

end DiffFolder

namespace ComparisonProgress

variable {p q : ComparisonProgress} {fault : Option CopyFault}

/-- Files were written only where an output of the reports so far leads, and only such outputs are
still written by diff programs. -/
structure Confined (s : ComparisonSettings) (t : FileTree) (p : ComparisonProgress) : Prop where
  written : WrittenAt t (s.IsOutputPlace t p.folder.tree (p.reported s)) p.folder.tree
  jobs : ∀ job ∈ p.folder.jobs, ∃ d ∈ p.reported s, job.output = d.flatName

namespace Confined

theorem start (s : ComparisonSettings) (t : FileTree) : (start t).Confined s t :=
  ⟨.refl _ _, by simp [ComparisonProgress.start]⟩

theorem jobsWriteAt (h : p.Confined s t) (left : FileTree) :
    p.folder.JobsWriteAt t s.diffPath (s.IsOutputPlace t left (p.reported s)) := by
  intro job hjob loc hloc
  obtain ⟨d, hd, houtput⟩ := h.jobs job hjob
  exact ⟨d, hd, _, .output, houtput ▸ hloc⟩

theorem proceed (h : p.Confined s t) (hwf : t.WellFormed) (hroot : s.diffPath.anchor ≠ .relative)
    (program : DiffProgram) : (p.proceed s program).Confined s t := by
  have hwritten : WrittenAt p.folder.tree
      (s.IsOutputPlace t (p.folder.proceed s.diffPath program).tree (p.reported s))
      (p.folder.proceed s.diffPath program).tree :=
    DiffFolder.proceed_writtenAt program h.written.toExtends hwf hroot (h.jobsWriteAt _)
  exact ⟨(h.written.mono fun loc hloc => hloc.mono hwritten.toExtends (List.Subset.refl _)).trans hwritten, h.jobs⟩

theorem note (h : p.Confined s t) (hwf : t.WellFormed) (hroot : s.diffPath.anchor ≠ .relative)
    (hd : d.relativePath = Path.toText ⟨.relative, names⟩)
    (hnote : (p.note s program names d).value = (q, fault)) : q.Confined s t := by
  rcases (ComparisonProgress.note_cases hnote).2 with ⟨-, hreported, hadd⟩ | ⟨-, hreported, hfolder, -⟩
  · have hjobs : p.folder.JobsWriteAt t s.diffPath (s.IsOutputPlace t q.folder.tree (q.reported s)) := by
      intro job hjob loc hloc
      exact (h.jobsWriteAt _ job hjob loc hloc).mono (.refl _) (by simp [hreported])
    obtain ⟨hwritten, hjobs'⟩ := DiffFolder.add_writtenAt h.written.toExtends hwf hroot hd hjobs
      (fun loc hloc => hloc.mono (.refl _) (by simp [hreported])) hadd
    refine ⟨(h.written.mono fun loc hloc => hloc.mono hwritten.toExtends (by simp [hreported])).trans hwritten,
      fun job hjob => ?_⟩
    rw [hreported]
    rcases hjobs' job hjob with hjob | houtput
    · obtain ⟨e, he, houtput⟩ := h.jobs job hjob
      exact ⟨e, List.mem_append_left _ he, houtput⟩
    · exact ⟨d, by simp, houtput⟩
  · exact ⟨by rw [hreported, hfolder]; exact h.written, by rw [hreported, hfolder]; exact h.jobs⟩

theorem visitFile (h : p.Confined s t) (hwf : t.WellFormed) (hroot : s.diffPath.anchor ≠ .relative)
    (names : List Text) : (p.visitFile s program names).value.1.Confined s t := by
  have hproceed := h.proceed hwf hroot program
  unfold ComparisonProgress.visitFile
  dsimp only
  split
  · split
    · rename_i d hd
      exact Confined.note (p := { p.proceed s program with total := p.total + 1 }) ⟨hproceed.written, hproceed.jobs⟩
        hwf hroot (ComparisonSettings.relativePath_of_differenceAt hd) rfl
    · exact ⟨hproceed.written, hproceed.jobs⟩
  · exact hproceed

end Confined

end ComparisonProgress

theorem ComparisonSettings.run_confined {r : FieldReaders} {v : Value} {start stop : Binary64}
    (hwf : t.WellFormed) (hs : ComparisonSettings.ofValue r t v = .ok (.valid s)) :
    (s.run t program start stop).value.progress.Confined s t := by
  rw [run_progress]
  have hroot := diffPath_anchor_of_ofValue hs
  refine ComparisonProgress.Confined.proceed ?_ hwf hroot program
  exact visitAll_induction (P := fun x => x.1.Confined s t) (Q := fun _ => True)
    (ComparisonProgress.Confined.start s t) (fun _ _ _ _ _ _ _ => trivial)
    fun p names _ h => h.visitFile hwf hroot names

end Steps

/-! ### Runs -/

namespace ComparisonSettings

variable {r : FieldReaders} {s : ComparisonSettings} {t : FileTree} {v : Value} {program : DiffProgram}
  {start stop : Binary64} {content : Bytes}

/-- A file is kept by a run, also by one that breaks off, unless an output of one of its reports leads
to the file. -/
theorem inputs_kept {p : Path} (hwf : t.WellFormed) (hs : ComparisonSettings.ofValue r t v = .ok (.valid s))
    (hread : t.read p = .ok content)
    (hout : ∀ d ∈ (s.run t program start stop).value.progress.reported s,
      ∀ q, s.IsOutput (s.run t program start stop).value.progress.folder.tree d q → t.landing q ≠ t.follow p) :
    (s.run t program start stop).value.progress.folder.tree.read p = .ok content := by
  refine (run_confined hwf hs).written.read_eq hread fun loc hfollow => ?_
  rintro ⟨d, hd, q, hq, hland⟩
  exact hout d hd q hq (hland.1.trans hfollow.symm)

/-- The diff folder is the master tree, and a file there that no output meets is kept. -/
theorem inputs_kept_beside :
    let t : FileTree := ⟨[(["c"], .directory), (["c", "b.h"], .file [3]), (["m"], .directory),
      (["m", "a.h"], .file [2]), (["m", "b.h"], .file [3])], by decide +kernel, [], [], []⟩
    let s : ComparisonSettings := ⟨"/m", "/c", "/m", false, 64, 30⟩
    (s.run t (.silent true) (.finite 0 0) (.finite 0 0)).value.progress.reported s = [⟨"a.h", false, true, true⟩] ∧
      (s.run t (.silent true) (.finite 0 0) (.finite 0 0)).value.progress.folder.tree.read (s.masterPath.child "b.h") =
        .ok [3] := by
  intro t s
  have hwf : t.WellFormed := .of_entries (by decide +kernel)
  have hs : ComparisonSettings.ofValue .lax t (.object [(some ("master_root" : Text), .text "/m"),
      (some ("cmp_root" : Text), .text "/c"), (some ("diff_root" : Text), .text "/m")]) = .ok (.valid s) := by rfl
  have hread : t.read (s.masterPath.child "b.h") = .ok [3] := by decide +kernel
  have hreported : (s.run t (.silent true) (.finite 0 0) (.finite 0 0)).value.progress.reported s =
      [⟨"a.h", false, true, true⟩] := by decide +kernel
  refine ⟨hreported, inputs_kept hwf hs hread fun d hd q hq => ?_⟩
  rw [hreported] at hd
  obtain rfl := List.mem_singleton.1 hd
  cases hq <;> decide +kernel

/-- The diff folder is the master tree: the output of a report is the very file that differs. -/
theorem inputs_kept_truncated :
    let t : FileTree := ⟨[(["c"], .directory), (["m"], .directory), (["m", "a.cpp"], .file [1])],
      by decide +kernel, [], [], []⟩
    let s : ComparisonSettings := ⟨"/m", "/c", "/m", false, 64, 30⟩
    let run := (s.run t (.silent true) (.finite 0 0) (.finite 0 0)).value
    (t.WellFormed ∧ ComparisonSettings.ofValue .lax t (.object [(some ("master_root" : Text), .text "/m"),
        (some ("cmp_root" : Text), .text "/c"), (some ("diff_root" : Text), .text "/m")]) = .ok (.valid s) ∧
      t.read (s.masterPath.child "a.cpp") = .ok [1]) ∧
    run.result = .ok ⟨1, 0, 1, 0⟩ ∧
    run.progress.folder.tree.read (s.masterPath.child "a.cpp") = .ok [] := by
  intro t s run
  exact ⟨⟨.of_entries (by decide +kernel), by rfl, by decide +kernel⟩, by decide +kernel, by decide +kernel⟩

end ComparisonSettings

end GenScope
