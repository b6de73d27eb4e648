import GenScope.Proofs.Comparison.Confined
import GenScope.Proofs.FileTree.Unseen

/-!
# Comparisons that do not see what they write

If no place where an output can come to lie is one where the two trees are read (`Apart`), then the
reports of a run do not feed back into it: after any number of files the counts and the differences
are those of the tree as it was before the run (`Visited`), and so is what the run lists from then on.
-/

namespace GenScope

open FileTree (Extends WrittenAt)

theorem readHead_congr {t u : FileTree} {p : Path} (h : ∀ content, u.read p = .ok content ↔ t.read p = .ok content)
    (limit : Option Nat) : readHead u p limit = readHead t p limit := by
  unfold readHead
  cases ht : t.read p with
  | ok content => rw [(h content).2 ht]
  | error fault =>
    cases hu : u.read p with
    | ok content => rw [(h content).1 hu] at ht; cases ht
    | error fault' => rfl

namespace ComparisonSettings

/-- An output can come to lie there: a path to an entry of the diff folder leads there, and there is
nothing else but a file. -/
def IsWritable (s : ComparisonSettings) (t : FileTree) (loc : Location) : Prop :=
  (∃ name, t.landing (s.diffPath.child name) = .ok loc) ∧ t.IsFree loc

/-- Outputs come to lie neither where a file of one of the trees is read nor among the files that the
walk lists. -/
structure Apart (s : ComparisonSettings) (t : FileTree) (master : Location) : Prop where
  walk : t.follow s.masterPath = .ok master
  listed : ∀ dir name, ¬ s.IsWritable t (master ++ dir ++ [name])
  master : ∀ names, (∀ name ∈ names, IsEntryName name) → ∀ loc, t.landing (s.masterPath.below names) = .ok loc →
    ¬ s.IsWritable t loc
  compared : ∀ names, (∀ name ∈ names, IsEntryName name) → ∀ loc, t.landing (s.comparedPath.below names) = .ok loc →
    ¬ s.IsWritable t loc

variable {s : ComparisonSettings} {t u : FileTree} {master : Location} {names : List Text}

theorem Apart.differenceAt_eq (h : s.Apart t master) (hu : WrittenAt t (s.IsWritable t) u)
    (hnames : ∀ name ∈ names, IsEntryName name) : s.differenceAt u names = s.differenceAt t names := by
  have hmaster := readHead_congr (fun _ => hu.read_iff (h.master names hnames)) s.headerBytes
  have hcompared := readHead_congr (fun _ => hu.read_iff (h.compared names hnames)) s.headerBytes
  simp only [differenceAt, hmaster, hcompared]

/-- The difference that is noted at a file of the master tree. -/
def noted? (s : ComparisonSettings) (t : FileTree) (names : List Text) : Option FileDifference :=
  if isCppFile (s.masterPath.below names) then s.differenceAt t names else none

theorem Apart.noted?_eq (h : s.Apart t master) (hu : WrittenAt t (s.IsWritable t) u)
    (hnames : ∀ name ∈ names, IsEntryName name) : s.noted? u names = s.noted? t names := by
  rw [noted?, noted?, h.differenceAt_eq hu hnames]

end ComparisonSettings

namespace ComparisonProgress

variable {s : ComparisonSettings} {t : FileTree} {master : Location} {names : List Text} {p q : ComparisonProgress}
  {d : FileDifference} {program : DiffProgram} {done : List (List Text)}

open ComparisonSettings

theorem visitFile_counts (p : ComparisonProgress) (s : ComparisonSettings) (program : DiffProgram) (names : List Text) :
    (p.visitFile s program names).value.1.total =
        p.total + (if isCppFile (s.masterPath.below names) then 1 else 0) ∧
      (p.visitFile s program names).value.1.differences =
        p.differences ++ (s.noted? (p.proceed s program).folder.tree names).toList := by
  unfold visitFile noted?
  by_cases hcpp : isCppFile (s.masterPath.below names) = true
  · simp only [if_pos hcpp]
    cases hd : s.differenceAt (p.proceed s program).folder.tree names with
    | none => exact ⟨rfl, (List.append_nil _).symm⟩
    | some d => exact (note_cases rfl).1
  · simp only [if_neg hcpp]
    exact ⟨rfl, (List.append_nil _).symm⟩

/-- The run has come through these files: it has counted them and noted their differences, as they are
in the tree before the run. -/
structure Visited (s : ComparisonSettings) (t : FileTree) (done : List (List Text)) (p : ComparisonProgress) :
    Prop where
  confined : p.Confined s t
  total : p.total = done.countP fun names => isCppFile (s.masterPath.below names)
  differences : p.differences = done.filterMap (s.noted? t)

theorem Confined.writtenAt (h : p.Confined s t) : WrittenAt t (s.IsWritable t) p.folder.tree := by
  refine h.written.mono fun loc hloc => ?_
  obtain ⟨d, -, r, hr, hland, hdir⟩ := hloc
  refine ⟨?_, hdir⟩
  cases hr with
  | output => exact ⟨_, hland⟩
  | master => exact ⟨_, hland⟩
  | compared => exact ⟨_, hland⟩

namespace Visited

theorem start (s : ComparisonSettings) (t : FileTree) : (start t).Visited s t [] :=
  ⟨Confined.start s t, rfl, rfl⟩

theorem proceed (h : p.Visited s t done) (hwf : t.WellFormed) (hroot : s.diffPath.anchor ≠ .relative)
    (program : DiffProgram) : (p.proceed s program).Visited s t done :=
  ⟨h.confined.proceed hwf hroot program, h.total, h.differences⟩

theorem visitFile (h : p.Visited s t done) (hs : s.Apart t master) (hwf : t.WellFormed)
    (hroot : s.diffPath.anchor ≠ .relative) (hnames : ∀ name ∈ names, IsEntryName name) :
    (p.visitFile s program names).value.1.Visited s t (done ++ [names]) := by
  obtain ⟨htotal, hdifferences⟩ := visitFile_counts p s program names
  refine ⟨h.confined.visitFile hwf hroot names, ?_, ?_⟩
  -- the visit reads the tree of the run, which differs from the first one only where outputs lie
  · rw [htotal, h.total, List.countP_append, List.countP_singleton]
  · rw [hdifferences, h.differences, hs.noted?_eq (h.confined.proceed hwf hroot program).writtenAt hnames,
      List.filterMap_append]
    cases hd : s.noted? t names <;> simp [hd]

theorem filesIn_eq (h : p.Visited s t done) (hs : s.Apart t master) (dir : List Text) :
    p.folder.tree.filesIn (master ++ dir) = t.filesIn (master ++ dir) :=
  h.confined.writtenAt.filesIn_eq (hs.listed dir)

end Visited

end ComparisonProgress

namespace ComparisonSettings

variable {s : ComparisonSettings} {t : FileTree} {master : Location} {program : DiffProgram}

theorem isEntryName_of_mem_namesBelow {names : List Text} (hwf : t.WellFormed)
    (hnames : names ∈ t.namesBelow master) : ∀ name ∈ names, IsEntryName name := by
  obtain ⟨dir, hdirs, hmem⟩ := List.mem_flatMap.1 hnames
  obtain ⟨name, hname, rfl⟩ := List.mem_map.1 hmem
  obtain ⟨e, hget, -⟩ := FileTree.mem_filesIn_iff.1 hname
  intro n hn
  exact hwf.names hget n (by rw [List.append_assoc]; exact List.mem_append_right _ hn)

theorem Apart.visited (h : s.Apart t master) (hwf : t.WellFormed) (hroot : s.diffPath.anchor ≠ .relative)
    (hfault : (s.visitAll t program).value.2 = none) :
    (s.visitAll t program).value.1.Visited s t (t.namesBelow master) := by
  obtain ⟨seen, -, hvisited, hall⟩ := visitAll_run (V := fun done x => x.1.Visited s t done) program
    h.walk (ComparisonProgress.Visited.start s t) (fun done p dir hp => hp.filesIn_eq h dir)
    fun done p names hnames hp => hp.visitFile h hwf hroot (isEntryName_of_mem_namesBelow hwf hnames)
  rwa [hall hfault] at hvisited

end ComparisonSettings

end GenScope
