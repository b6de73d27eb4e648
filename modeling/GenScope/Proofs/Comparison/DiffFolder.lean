import GenScope.Proofs.Comparison.Completion

/-!
# Copies in the diff folder

All reports of a run share one folder, and a flat name stands for several relative paths. The copy of
a report is lost if a diff program has its name for an output, since nobody knows what the program
writes there and when. Otherwise it is there at the end unless a later report writes under its name: one
with the same flat name, whose copy has to have the same bytes, or, if no program can be started, one
whose output is opened there, and stays empty (`IsKept`). `copies_kept_iff` says that there is nothing
else to it.
-/

namespace GenScope

namespace ComparisonSettings

/-- A later report writes under the name that `lead` gives the copy of an earlier one: as a copy, or
as an output file. -/
def overwrites (lead : Text) (content : FileDifference → Option Bytes) (d e : FileDifference) : Bool :=
  (e.flatName = d.flatName && (content e).isSome) || e.flatName = lead ++ d.flatName

/-- What the last of the later reports to write under the name of a copy leaves there is the copy. -/
def IsLast (lead : Text) (content : FileDifference → Option Bytes) (d : FileDifference)
    (later : List FileDifference) : Prop :=
  ∀ e, (later.filter (overwrites lead content d)).getLast? = some e →
    content d = if e.flatName = d.flatName then content e else some []

/-- The copy is there in the end, whatever diff programs write. -/
structure IsKept (canStart : Bool) (lead : Text) (content : FileDifference → Option Bytes)
    (before : List FileDifference) (d : FileDifference) (later : List FileDifference) : Prop where
  /-- No diff program writes under the name of the copy. -/
  unshared : canStart = true → ∀ e ∈ before ++ later, e.flatName ≠ lead ++ d.flatName
  last : IsLast lead content d later

variable {lead : Text} {content : FileDifference → Option Bytes} {d e : FileDifference}
  {writes : FileDifference → List (Text × Bytes)} {later : List FileDifference}

theorem isLast_of_forall (h : ∀ e ∈ later, overwrites lead content d e = false) :
    IsLast lead content d later := by
  intro e he
  obtain ⟨hmem, hover⟩ := List.mem_filter.1 (List.mem_of_getLast? he)
  rw [h e hmem] at hover
  cases hover

/-- If a report writes under the names that start with `lead` only its copy and its output, what the
later ones write under the name of a copy is what the last of them writes. -/
theorem lastWrite_flatMap (hlead : lead ≠ []) (hw : ∀ e, lastWrite (lead ++ d.flatName) (writes e) =
      if e.flatName = d.flatName then content e
      else if e.flatName = lead ++ d.flatName then some [] else none) :
    lastWrite (lead ++ d.flatName) (later.flatMap writes) =
      ((later.filter (overwrites lead content d)).getLast?).bind fun e =>
        if e.flatName = d.flatName then content e else some [] := by
  induction later using List.reverseRecOn with
  | nil => rfl
  | append_singleton later e ih =>
    rw [List.flatMap_append, lastWrite_append, List.flatMap_singleton, hw, ih, List.filter_append]
    by_cases hsame : e.flatName = d.flatName
    · cases hcontent : content e <;> simp [overwrites, hsame, hcontent, hlead]
    · by_cases hout : e.flatName = lead ++ d.flatName <;> simp [overwrites, hsame, hout, hlead]

theorem lastWrite_eq_iff_isLast {before : List FileDifference} {bytes : Bytes} (hlead : lead ≠ [])
    (hw : ∀ e, lastWrite (lead ++ d.flatName) (writes e) =
      if e.flatName = d.flatName then content e
      else if e.flatName = lead ++ d.flatName then some [] else none)
    (hd : content d = some bytes) :
    lastWrite (lead ++ d.flatName) ((before ++ d :: later).flatMap writes) = some bytes ↔
      IsLast lead content d later := by
  have hall : lastWrite (lead ++ d.flatName) ((before ++ d :: later).flatMap writes) =
      (lastWrite (lead ++ d.flatName) (later.flatMap writes)).or (some bytes) := by
    rw [List.flatMap_append, List.flatMap_cons, lastWrite_append, lastWrite_append, hw d, if_pos rfl, hd]
    cases lastWrite (lead ++ d.flatName) (later.flatMap writes) <;> rfl
  rw [hall, lastWrite_flatMap hlead hw, IsLast, hd]
  cases hlast : (later.filter (overwrites lead content d)).getLast? with
  | none => simp
  | some e =>
    have hover : overwrites lead content d e = true := (List.mem_filter.1 (List.mem_of_getLast? hlast)).2
    obtain ⟨left, hleft⟩ : ∃ left, (if e.flatName = d.flatName then content e else some []) = some left := by
      by_cases hsame : e.flatName = d.flatName
      · have hlen : ¬ d.flatName = lead ++ d.flatName := fun h => hlead (by simpa using h)
        rw [if_pos hsame]
        exact Option.isSome_iff_exists.1 (by simpa [overwrites, hsame, hlen] using hover)
      · exact ⟨[], if_neg hsame⟩
    have hbytes : (some left).or (some bytes) = some bytes ↔ some bytes = some left := by simp [eq_comm]
    rw [Option.bind_some, hleft, hbytes]
    simp [hleft]

/-! ### What the copies of a report write -/

theorem lastWrite_copy (lead f g : Text) (content : Option Bytes) :
    lastWrite (lead ++ f) ((content.map fun bytes => (lead ++ g, bytes)).toList) =
      if g = f then content else none := by
  cases content <;> simp [lastWrite]

theorem lastWrite_copy_of_ne {name other : Text} (h : other ≠ name) (content : Option Bytes) :
    lastWrite name ((content.map fun bytes => (other, bytes)).toList) = none := by
  cases content <;> simp [lastWrite, h]

theorem or_output {lead : Text} (hlead : lead ≠ []) (content : Option Bytes) :
    (if e.flatName = d.flatName then content else none).or
        (if e.flatName = lead ++ d.flatName then some [] else none) =
      if e.flatName = d.flatName then content
      else if e.flatName = lead ++ d.flatName then some [] else none := by
  by_cases hsame : e.flatName = d.flatName
  · have hne : ¬ e.flatName = lead ++ d.flatName := by
      rw [hsame]; exact fun h => hlead (by simpa using h)
    rw [if_pos hsame, if_neg hne, if_pos hsame, Option.or_none]
  · rw [if_neg hsame, if_neg hsame, Option.none_or]

theorem lastWrite_master (s : ComparisonSettings) (t : FileTree) (d e : FileDifference) :
    lastWrite ("master_" ++ d.flatName) (s.writesOf t e) =
      if e.flatName = d.flatName then s.masterContent t e
      else if e.flatName = "master_" ++ d.flatName then some [] else none := by
  have hne : ("cmp_" : Text) ++ e.flatName ≠ "master_" ++ d.flatName := by simp
  rw [writesOf, lastWrite, lastWrite_append, lastWrite_copy, lastWrite_copy_of_ne hne, Option.none_or]
  exact or_output (by decide) _

theorem lastWrite_compared (s : ComparisonSettings) (t : FileTree) (d e : FileDifference) :
    lastWrite ("cmp_" ++ d.flatName) (s.writesOf t e) =
      if e.flatName = d.flatName then s.comparedContent t e
      else if e.flatName = "cmp_" ++ d.flatName then some [] else none := by
  have hne : ("master_" : Text) ++ e.flatName ≠ "cmp_" ++ d.flatName := by simp
  rw [writesOf, lastWrite, lastWrite_append, lastWrite_copy, lastWrite_copy_of_ne hne, Option.or_none]
  exact or_output (by decide) _

/-! ### Runs -/

/-- All three directories may be entered if a completed run has reported a difference. -/
theorem places_of_reported {r : FieldReaders} {s : ComparisonSettings} {t : FileTree} {v : Value}
    {program : DiffProgram} {start stop : Binary64} {summary : ComparisonSummary} {d : FileDifference}
    (hwf : t.WellFormed) (hl : t.LinkFree) (hs : ComparisonSettings.ofValue r t v = .ok (.valid s))
    (hseparate : s.Separate t s.masterPath.names s.diffPath.names)
    (hcompared : ¬ s.comparedPath.names <+: s.diffPath.names)
    (hrun : (s.run t program start stop).value.result = .ok summary)
    (hd : d ∈ (s.run t program start stop).value.progress.reported s) :
    s.Places t s.masterPath.names s.comparedPath.names s.diffPath.names := by
  obtain ⟨⟨m, -, -, -, hmp⟩, ⟨c, e, hc, he, hcp⟩, ⟨f, -, -, -, hfp⟩⟩ := ComparisonSettings.paths_of_ofValue hwf hl hs
  obtain ⟨names, hnames, hcopyable⟩ := hseparate.copyable_of_reported hwf (diffPath_anchor_of_ofValue hs) hrun hd
  have hmaster : t.get? s.masterPath.names = some .directory := by
    by_contra hdir
    rw [hwf.namesBelow_eq_nil hdir] at hnames
    cases hnames
  have hdir : t.get? s.comparedPath.names = some .directory := by
    have hfollow : t.follow s.comparedPath = .ok c := by
      rw [hcp]
      exact hwf.follow_top hl hc
    have hopen := hcopyable.not_closed hwf (anchors_of_ofValue hs).2.1 hfollow (FileTree.ne_nil_of_mem_namesBelow hnames)
    rcases Entry.isDirectory_iff.1 he with rfl | rfl
    · rw [hcp]
      exact hc
    · exact absurd hc hopen
  exact ⟨hwf, hl, by rw [hmp], by rw [hcp], by rw [hfp], hmaster, hdir,
    FileTree.get?_of_stat hcopyable.folder hseparate.follow_diff, hseparate.empty, hseparate.outside, hcompared⟩

section Kept

variable {s : ComparisonSettings} {t : FileTree} {master compared diff : Location} {program : DiffProgram}
  {start stop : Binary64} {summary : ComparisonSummary} {before after : List FileDifference} {bytes : Bytes}

theorem Places.written (hp : s.Places t master compared diff)
    (hrun : (s.run t program start stop).value.result = .ok summary) :
    (s.run t program start stop).value.progress.Written s t program master diff := by
  rw [run_progress]
  exact (hp.visitAll (exists_result_iff.1 ⟨_, hrun⟩)).proceed hp

theorem exists_job_iff {p : ComparisonProgress} (h : p.Written s t program master diff) {name : Text} :
    (∃ job ∈ p.folder.jobs, job.output = name) ↔ program.canStart = true ∧ ∃ e ∈ p.reported s, e.flatName = name := by
  have hmem : (∃ job ∈ p.folder.jobs, job.output = name) ↔ name ∈ p.folder.jobs.map DiffJob.output := by simp
  rw [hmem, h.jobs]
  cases program.canStart <;> simp

/-- Whatever the jobs write, they leave a copy in place exactly if it is kept. -/
theorem forall_read_iff_isKept (hp : s.Places t master compared diff) (hlead : 3 ≤ lead.length ∧ '/' ∉ lead)
    (hw : ∀ e, lastWrite (lead ++ d.flatName) (s.writesOf t e) =
      if e.flatName = d.flatName then content e
      else if e.flatName = lead ++ d.flatName then some [] else none)
    (hbytes : content d = some bytes)
    (hrun : ∀ writes, (s.run t { program with writes } start stop).value.result = .ok summary ∧
      (s.run t { program with writes } start stop).value.progress.reported s = before ++ d :: after) :
    (∀ writes, (s.run t { program with writes } start stop).value.progress.folder.tree.read
        (s.diffPath.child (lead ++ d.flatName)) = .ok bytes) ↔
      IsKept program.canStart lead content before d after := by
  have hne : lead ≠ [] := by
    rintro rfl
    exact absurd hlead.1 (by decide)
  have hown : d.flatName ≠ lead ++ d.flatName := fun h => hne (by simpa using h)
  have hname : IsEntryName (lead ++ d.flatName) := isEntryName_append hlead d.slash_not_mem_flatName
  -- what the reports have written is left alone by jobs with other outputs
  have hread : ∀ writes, (program.canStart = true → ∀ e ∈ before ++ after, e.flatName ≠ lead ++ d.flatName) →
      ((s.run t { program with writes } start stop).value.progress.folder.tree.read
        (s.diffPath.child (lead ++ d.flatName)) = .ok bytes ↔ IsLast lead content d after) := by
    intro writes hunshared
    have hwritten := hp.written (hrun writes).1
    have hjobs : ∀ job ∈ (s.run t { program with writes } start stop).value.progress.folder.jobs,
        job.output ≠ lead ++ d.flatName := by
      intro job hjob houtput
      obtain ⟨hcan, e, he, hflat⟩ := (exists_job_iff hwritten).1 ⟨job, hjob, houtput⟩
      rw [(hrun writes).2, List.mem_append, List.mem_cons] at he
      rcases he with he | rfl | he
      · exact hunshared hcan e (List.mem_append_left _ he) hflat
      · exact hown hflat
      · exact hunshared hcan e (List.mem_append_right _ he) hflat
    rw [hwritten.holds.read_iff hp hname hjobs, (hrun writes).2]
    exact lastWrite_eq_iff_isLast hne hw hbytes
  constructor
  · intro h
    have hunshared : program.canStart = true → ∀ e ∈ before ++ after, e.flatName ≠ lead ++ d.flatName := by
      intro hcan e he hflat
      -- the jobs may as well write one byte more than the copy has
      let writes : Nat → DiffJob → Option Bytes := fun _ _ => some (bytes ++ [0])
      have hvisited := hp.visitAll (exists_result_iff.1 ⟨_, (hrun writes).1⟩)
      have hreported : e ∈ (s.visitAll t { program with writes }).value.1.reported s := by
        have hreported := (hrun writes).2
        rw [run_progress] at hreported
        rw [show (s.visitAll t { program with writes }).value.1.reported s = before ++ d :: after from hreported]
        simp only [List.mem_append, List.mem_cons] at he ⊢
        tauto
      obtain ⟨job, hjob, houtput⟩ := (exists_job_iff hvisited).2 ⟨hcan, e, hreported, hflat⟩
      have hleft := h writes
      rw [run_progress, ← houtput] at hleft
      have hjunk := hvisited.holds.read_proceed hp hjob { program with writes } (bytes ++ [0]) fun _ _ => rfl
      have heq := Except.ok.inj (hleft.symm.trans hjunk)
      simp at heq
    exact ⟨hunshared, (hread program.writes hunshared).1 (h program.writes)⟩
  · exact fun hkept writes => (hread writes hkept.unshared).2 hkept.last

end Kept

/-- What a completed run reports does not depend on what the diff programs write, and whatever they
write, it leaves the copies of a report in the diff folder exactly if they are kept: the one of the
master version, and that of its counterpart if there is one. -/
theorem copies_kept_iff {r : FieldReaders} {s : ComparisonSettings} {t : FileTree} {v : Value} {program : DiffProgram}
    {start stop : Binary64} {summary : ComparisonSummary} (hwf : t.WellFormed) (hl : t.LinkFree)
    (hs : ComparisonSettings.ofValue r t v = .ok (.valid s))
    (hempty : ∀ name, t.get? (s.diffPath.names ++ [name]) = none)
    (hmaster : ¬ s.masterPath.names <+: s.diffPath.names)
    (hcompared : ¬ s.comparedPath.names <+: s.diffPath.names)
    (hrun : (s.run t program start stop).value.result = .ok summary)
    {before after : List FileDifference} {d : FileDifference}
    (hd : (s.run t program start stop).value.progress.reported s = before ++ d :: after) :
    let run := fun writes : Nat → DiffJob → Option Bytes => (s.run t { program with writes } start stop).value
    (∀ writes, (run writes).result = .ok summary ∧ (run writes).progress.reported s = before ++ d :: after) ∧
    (∃ bytes, s.masterContent t d = some bytes ∧
      ((∀ writes, (run writes).progress.folder.tree.read (s.diffPath.child ("master_" ++ d.flatName)) = .ok bytes) ↔
        IsKept program.canStart "master_" (s.masterContent t) before d after)) ∧
    (t.pathExists (s.comparedFile d) = true → ∃ bytes, s.comparedContent t d = some bytes ∧
      ((∀ writes, (run writes).progress.folder.tree.read (s.diffPath.child ("cmp_" ++ d.flatName)) = .ok bytes) ↔
        IsKept program.canStart "cmp_" (s.comparedContent t) before d after)) := by
  intro run
  have hseparate := separate_of_ofValue hwf hl hs hempty hmaster hcompared
  have hp := places_of_reported hwf hl hs hseparate hcompared hrun (d := d) (by rw [hd]; simp)
  have hall : ∀ writes, (run writes).result = .ok summary ∧
      (run writes).progress.reported s = before ++ d :: after := by
    intro writes
    rw [← hd]
    exact hseparate.run_congr hwf (diffPath_anchor_of_ofValue hs) hrun _
  obtain ⟨-, hcopied⟩ := (hp.written hrun).report d (by rw [hd]; simp)
  refine ⟨hall, ?_, fun hexists => ?_⟩
  · obtain ⟨bytes, hbytes⟩ := Option.isSome_iff_exists.1 hcopied.1
    exact ⟨bytes, hbytes, forall_read_iff_isKept hp (by decide) (s.lastWrite_master t d) hbytes hall⟩
  · obtain ⟨bytes, hbytes⟩ := Option.isSome_iff_exists.1 (hcopied.2 hexists)
    exact ⟨bytes, hbytes, forall_read_iff_isKept hp (by decide) (s.lastWrite_compared t d) hbytes hall⟩

/-- Two files whose flat names do not meet: both copies of the first one are left, whatever is written
into the two outputs. -/
theorem copies_kept_apart :
    let t : FileTree := ⟨[(["c"], .directory), (["c", "a.h"], .file [1]), (["d"], .directory), (["m"], .directory),
      (["m", "a.h"], .file [2]), (["m", "b.h"], .file [3])], by decide +kernel, [], [], []⟩
    let s : ComparisonSettings := ⟨"/m", "/c", "/d", false, 64, 30⟩
    let program : DiffProgram := .silent true
    let left := fun writes =>
      (s.run t { program with writes } (.finite 0 0) (.finite 0 0)).value.progress.folder.tree
    (∀ writes, (left writes).read (.ofText "/d/master_a.h") = .ok [2]) ∧
      ∀ writes, (left writes).read (.ofText "/d/cmp_a.h") = .ok [1] := by
  intro t s program left
  let a : FileDifference := ⟨"a.h", false, false, true⟩
  let b : FileDifference := ⟨"b.h", false, true, true⟩
  have hwf : t.WellFormed := .of_entries (by decide +kernel)
  have hl : t.LinkFree := .of_entries (by simp [t])
  have hs : ComparisonSettings.ofValue .lax t (.object [(some ("master_root" : Text), .text "/m"),
      (some ("cmp_root" : Text), .text "/c"), (some ("diff_root" : Text), .text "/d")]) = .ok (.valid s) := by rfl
  have hempty : ∀ name, t.get? (s.diffPath.names ++ [name]) = none := by
    rw [show s.diffPath.names = [("d" : Text)] by decide]
    exact fun name => FileTree.get?_eq_none (by simp) (by simp [t])
  have hreported : (s.run t program (.finite 0 0) (.finite 0 0)).value.progress.reported s = [] ++ a :: [b] := by
    decide +kernel
  have hrun : (s.run t program (.finite 0 0) (.finite 0 0)).value.result = .ok ⟨2, 0, 2, 0⟩ := by decide +kernel
  obtain ⟨-, ⟨master, hmaster, hkept⟩, hcounterpart⟩ :=
    copies_kept_iff hwf hl hs hempty (by decide) (by decide) hrun hreported
  obtain ⟨compared, hcompared, hkept'⟩ := hcounterpart (by decide +kernel)
  rw [show s.masterContent t a = some [2] by decide +kernel] at hmaster
  rw [show s.comparedContent t a = some [1] by decide +kernel] at hcompared
  obtain rfl := Option.some.inj hmaster
  obtain rfl := Option.some.inj hcompared
  rw [show s.diffPath.child ("master_" ++ a.flatName) = .ofText "/d/master_a.h" by decide +kernel] at hkept
  rw [show s.diffPath.child ("cmp_" ++ a.flatName) = .ofText "/d/cmp_a.h" by decide +kernel] at hkept'
  dsimp only at hkept hkept'
  dsimp only [left]
  exact ⟨hkept.2 ⟨by decide +kernel, isLast_of_forall (by simp only [List.forall_mem_singleton]; decide +kernel)⟩,
    hkept'.2 ⟨by decide +kernel, isLast_of_forall (by simp only [List.forall_mem_singleton]; decide +kernel)⟩⟩

/-- The output of one report stands where the copy of another one was: the copy is lost to what the diff
program prints. -/
theorem copies_kept_truncated :
    let t : FileTree := ⟨[(["c"], .directory), (["d"], .directory), (["m"], .directory),
      (["m", "a.cpp"], .file [1]), (["m", "master_a.cpp"], .file [2])], by decide +kernel, [], [], []⟩
    let s : ComparisonSettings := ⟨"/m", "/c", "/d", false, 64, 30⟩
    let message := fun job : DiffJob => Utf8.encode ("diff: " ++ job.compared.toText ++ ": No such file or directory\n")
    let program : DiffProgram := ⟨true, fun _ job => some (message job)⟩
    let run := (s.run t program (.finite 0 0) (.finite 0 0)).value
    let d : FileDifference := ⟨"a.cpp", false, true, true⟩
    (t.WellFormed ∧ t.LinkFree ∧ ComparisonSettings.ofValue .lax t (.object [(some ("master_root" : Text), .text "/m"),
        (some ("cmp_root" : Text), .text "/c"), (some ("diff_root" : Text), .text "/d")]) = .ok (.valid s) ∧
      (∀ name, t.get? (s.diffPath.names ++ [name]) = none) ∧ ¬ s.masterPath.names <+: s.diffPath.names ∧
      ¬ s.comparedPath.names <+: s.diffPath.names ∧ run.result = .ok ⟨2, 0, 2, 0⟩ ∧ d ∈ run.progress.reported s) ∧
    s.masterContent t d = some [1] ∧
    run.progress.folder.tree.read (s.diffPath.child ("master_" ++ d.flatName)) =
      .ok (Utf8.encode "diff: /c/master_a.cpp: No such file or directory\n") := by
  intro t s message program run d
  have hempty : ∀ name, t.get? (s.diffPath.names ++ [name]) = none := by
    rw [show s.diffPath.names = [("d" : Text)] by decide]
    exact fun name => FileTree.get?_eq_none (by simp) (by simp [t])
  exact ⟨⟨.of_entries (by decide +kernel), .of_entries (by simp [t]), by rfl, hempty, by decide, by decide,
    by decide +kernel, by decide +kernel⟩, by decide +kernel, by decide +kernel⟩

end ComparisonSettings

end GenScope
