import GenScope.Comparison.Run
import GenScope.Proofs.FileTree.Walk

/-!
# Invariants of a comparison

What holds before the first file and is kept by every file that a run visits holds of the run, as far
as it got (`visitAll_induction`, `run_progress`). A visited file is one that its directory lists in
the tree as it is when the walk comes to the directory.
-/

namespace GenScope

variable {s : ComparisonSettings} {t : FileTree} {program : DiffProgram} {start stop : Binary64}

theorem ComparisonSettings.relativePath_of_differenceAt {names : List Text} {d : FileDifference}
    (h : s.differenceAt t names = some d) : d.relativePath = Path.toText ⟨.relative, names⟩ := by
  unfold differenceAt at h
  dsimp only at h
  split at h
  · cases h
  · obtain rfl := Option.some.inj h
    rfl

namespace ComparisonProgress

theorem reported_append {p q : ComparisonProgress} {d : FileDifference} (h : q.differences = p.differences ++ [d]) :
    q.reported s = p.reported s ++ if s.reports d then [d] else [] := by
  by_cases hd : s.reports d = true <;> simp [reported, h, hd]

theorem note_cases {p q : ComparisonProgress} {names : List Text} {d : FileDifference} {fault : Option CopyFault}
    (hnote : (p.note s program names d).value = (q, fault)) :
    (q.total = p.total ∧ q.differences = p.differences ++ [d]) ∧
      ((s.reports d = true ∧ q.reported s = p.reported s ++ [d] ∧ (p.folder.add s.diffPath program
          ⟨s.masterPath.below names, s.comparedPath.below names, d.flatName⟩).value = (q.folder, fault)) ∨
        (s.reports d = false ∧ q.reported s = p.reported s ∧ q.folder = p.folder ∧ fault = none)) := by
  unfold note at hnote
  dsimp only at hnote
  cases hreport : s.reports d with
  | true =>
    rw [hreport, if_pos rfl, Logged.value_bind_eq] at hnote
    obtain ⟨rfl, rfl⟩ := Prod.mk.inj hnote
    refine ⟨⟨rfl, rfl⟩, .inl ⟨rfl, ?_, rfl⟩⟩
    rw [reported_append (p := p) rfl, hreport, if_pos rfl]
  | false =>
    rw [hreport, if_neg Bool.false_ne_true] at hnote
    obtain ⟨rfl, rfl⟩ := Prod.mk.inj hnote
    refine ⟨⟨rfl, rfl⟩, .inr ⟨rfl, ?_, rfl, rfl⟩⟩
    rw [reported_append (p := p) rfl, hreport, if_neg Bool.false_ne_true, List.append_nil]

variable {P : ComparisonProgress × Option CopyFault → Prop} {Q : List Text → Prop} {p : ComparisonProgress}

theorem visitFiles_induction {files : List (List Text)} (hfiles : ∀ names ∈ files, Q names)
    (hfile : ∀ p names, Q names → P (p, none) → P (p.visitFile s program names).value) (h : P (p, none)) :
    P (visitFiles s program p files).value := by
  induction files generalizing p with
  | nil => exact h
  | cons names files ih =>
    rw [visitFiles, Logged.value_bind_eq]
    have hstep := hfile p names (hfiles names (by simp)) h
    match hvisit : (p.visitFile s program names).value with
    | (q, some fault) => rw [hvisit] at hstep; exact hstep
    | (q, none) => rw [hvisit] at hstep; exact ih (fun u hu => hfiles u (by simp [hu])) hstep

theorem visitDirectories_induction {root : Location} {dirs : List (List Text)}
    (hlist : ∀ p dir name, P (p, none) → name ∈ p.folder.tree.filesIn (root ++ dir) → Q (dir ++ [name]))
    (hfile : ∀ p names, Q names → P (p, none) → P (p.visitFile s program names).value) (h : P (p, none)) :
    P (visitDirectories s program root p dirs).value := by
  induction dirs generalizing p with
  | nil => exact h
  | cons dir dirs ih =>
    rw [visitDirectories, Logged.value_bind_eq]
    have hfiles : ∀ names ∈ (p.folder.tree.filesIn (root ++ dir)).map fun name => dir ++ [name], Q names := by
      intro names hnames
      obtain ⟨name, hname, rfl⟩ := List.mem_map.1 hnames
      exact hlist p dir name h hname
    have hstep := visitFiles_induction hfiles hfile h
    match hvisit : (visitFiles s program p
        ((p.folder.tree.filesIn (root ++ dir)).map fun name => dir ++ [name])).value with
    | (q, some fault) => rw [hvisit] at hstep; exact hstep
    | (q, none) => rw [hvisit] at hstep; exact ih hstep

end ComparisonProgress

/-! ### How far a run has come -/

namespace ComparisonProgress

variable {V : List (List Text) → ComparisonProgress × Option CopyFault → Prop} {Q : List Text → Prop}
  {p : ComparisonProgress} {done : List (List Text)}

/-- What every file keeps, given the files before it, holds of those that are visited: of all of them,
unless a copy fails. -/
theorem visitFiles_run (files : List (List Text)) (hfiles : ∀ names ∈ files, Q names)
    (hfile : ∀ done p names, Q names → V done (p, none) → V (done ++ [names]) (p.visitFile s program names).value)
    (h : V done (p, none)) :
    ∃ seen, seen <+: files ∧ V (done ++ seen) (visitFiles s program p files).value ∧
      ((visitFiles s program p files).value.2 = none → seen = files) := by
  -- `done` holds the files that are behind `p`
  induction files generalizing p done with
  | nil => exact ⟨[], List.prefix_refl _, by rw [List.append_nil]; exact h, fun _ => rfl⟩
  | cons names files ih =>
    have hstep := hfile done p names (hfiles names (by simp)) h
    rw [visitFiles, Logged.value_bind_eq]
    match hvisit : (p.visitFile s program names).value with
    | (q, some fault) =>
      rw [hvisit] at hstep
      exact ⟨[names], ⟨files, rfl⟩, hstep, fun hnone => by cases hnone⟩
    | (q, none) =>
      rw [hvisit] at hstep
      obtain ⟨seen, hseen, hV, hall⟩ := ih (fun u hu => hfiles u (by simp [hu])) hstep
      refine ⟨names :: seen, List.prefix_cons_inj names |>.2 hseen, ?_, fun hnone => by rw [hall hnone]⟩
      rw [List.append_assoc, List.singleton_append] at hV
      exact hV

theorem visitDirectories_run {root : Location} {dirs : List (List Text)}
    (hlist : ∀ done p dir, V done (p, none) → p.folder.tree.filesIn (root ++ dir) = t.filesIn (root ++ dir))
    (hfiles : ∀ dir ∈ dirs, ∀ name ∈ t.filesIn (root ++ dir), Q (dir ++ [name]))
    (hfile : ∀ done p names, Q names → V done (p, none) → V (done ++ [names]) (p.visitFile s program names).value)
    (h : V done (p, none)) :
    ∃ seen, seen <+: (dirs.flatMap fun dir => (t.filesIn (root ++ dir)).map fun name => dir ++ [name]) ∧
      V (done ++ seen) (visitDirectories s program root p dirs).value ∧
      ((visitDirectories s program root p dirs).value.2 = none →
        seen = dirs.flatMap fun dir => (t.filesIn (root ++ dir)).map fun name => dir ++ [name]) := by
  induction dirs generalizing p done with
  | nil => exact ⟨[], List.prefix_refl _, by rw [List.append_nil]; exact h, fun _ => rfl⟩
  | cons dir dirs ih =>
    obtain ⟨first, hfirst, hV, hall⟩ := visitFiles_run ((t.filesIn (root ++ dir)).map fun name => dir ++ [name])
      (List.forall_mem_map.2 (hfiles dir (by simp))) hfile h
    rw [visitDirectories, Logged.value_bind_eq, hlist done p dir h, List.flatMap_cons]
    match hvisit : (visitFiles s program p ((t.filesIn (root ++ dir)).map fun name => dir ++ [name])).value with
    | (q, some fault) =>
      rw [hvisit] at hV
      exact ⟨first, hfirst.trans (List.prefix_append _ _), hV, fun hnone => by cases hnone⟩
    | (q, none) =>
      rw [hvisit] at hV hall
      obtain rfl := hall rfl
      obtain ⟨seen, hseen, hV, hall⟩ := ih (fun d hd => hfiles d (by simp [hd])) hV
      refine ⟨_ ++ seen, (List.prefix_append_right_inj _).2 hseen, ?_, fun hnone => by rw [hall hnone]⟩
      rw [List.append_assoc] at hV
      exact hV

end ComparisonProgress

namespace ComparisonSettings

variable {P : ComparisonProgress × Option CopyFault → Prop} {Q : List Text → Prop}
  {V : List (List Text) → ComparisonProgress × Option CopyFault → Prop}

/-- A run over a tree whose lists of files stay as they are visits those files in their order, until a
copy fails. -/
theorem visitAll_run (program : DiffProgram) {root : Location} (hroot : t.follow s.masterPath = .ok root)
    (hstart : V [] (.start t, none))
    (hlist : ∀ done p dir, V done (p, none) → p.folder.tree.filesIn (root ++ dir) = t.filesIn (root ++ dir))
    (hfile : ∀ done p names, names ∈ t.namesBelow root → V done (p, none) →
      V (done ++ [names]) (p.visitFile s program names).value) :
    ∃ seen, seen <+: t.namesBelow root ∧ V seen (s.visitAll t program).value ∧
      ((s.visitAll t program).value.2 = none → seen = t.namesBelow root) := by
  have hfiles : ∀ dir ∈ t.directoriesBelow root, ∀ name ∈ t.filesIn (root ++ dir), dir ++ [name] ∈ t.namesBelow root := by
    intro dir hdir name hname
    exact List.mem_flatMap.2 ⟨dir, hdir, List.mem_map.2 ⟨name, hname, rfl⟩⟩
  rw [visitAll, hroot]
  exact ComparisonProgress.visitDirectories_run hlist hfiles hfile hstart

theorem visitAll_induction (hstart : P (.start t, none))
    (hlist : ∀ p root dir name, t.follow s.masterPath = .ok root → P (p, none) →
      name ∈ p.folder.tree.filesIn (root ++ dir) → Q (dir ++ [name]))
    (hfile : ∀ p names, Q names → P (p, none) → P (p.visitFile s program names).value) :
    P (s.visitAll t program).value := by
  unfold visitAll
  split
  · exact hstart
  · rename_i root hroot
    exact ComparisonProgress.visitDirectories_induction (fun p dir name => hlist p root dir name hroot) hfile hstart

theorem run_value : (s.run t program start stop).value =
    match (s.visitAll t program).value with
    | (p, some fault) => ⟨p.proceed s program, .error fault⟩
    | (p, none) => ⟨p.proceed s program, .ok (p.summary (elapsedMilliseconds start stop))⟩ := by
  rw [run, Logged.value_bind_eq]
  generalize (s.visitAll t program).value = visited
  obtain ⟨p, _ | fault⟩ := visited <;> rfl

theorem run_progress : (s.run t program start stop).value.progress =
    (s.visitAll t program).value.1.proceed s program := by
  rw [run_value]
  generalize (s.visitAll t program).value = visited
  obtain ⟨p, _ | fault⟩ := visited <;> rfl

theorem exists_result_iff : (∃ summary, (s.run t program start stop).value.result = .ok summary) ↔
    (s.visitAll t program).value.2 = none := by
  rw [run_value]
  generalize (s.visitAll t program).value = visited
  obtain ⟨p, _ | fault⟩ := visited
  · exact iff_of_true ⟨_, rfl⟩ rfl
  · exact iff_of_false (by simp) (by simp)

end ComparisonSettings

end GenScope
