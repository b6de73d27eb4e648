import GenScope.Proofs.FileTree.Resolve

/-!
# Trees that differ in files

Where a path leads, what it resolves to, whether it leads into a loop of links or through a directory that
may not be entered and whether it is too long depends on the directories and the links only
(`SameWays.stat_error_iff`). Trees that differ in their files (`SameButFiles`) are therefore told apart only
by a path that leads to a file in which they differ (`found?_eq`, `read_eq_of_isFile`).
-/

namespace GenScope.FileTree

variable {t t' : FileTree} {create : Bool} {here loc : Location} {name : Text} {names : List Text} {p : Path}
  {e : Entry} {fault : Fault} {onLink onLink' : Location → List Text → Except Fault Location}

/-! ### Loops of links, long names and closed directories -/

/-- The fault is found on the way, before what a path leads to. -/
def IsOnWay (fault : Fault) : Prop := fault = .tooManyLinks ∨ fault = .nameTooLong ∨ fault = .denied

theorem descend_cons_eq_error_iff (hfault : IsOnWay fault) :
    descend t create onLink here (name :: names) = .error fault ↔
      (name = ['.', '.'] ∧ descend t create onLink here.dropLast names = .error fault) ∨
      ((name ≠ ['.', '.'] ∧ isShortName name = false) ∧ fault = .nameTooLong) ∨
      ((name ≠ ['.', '.'] ∧ isShortName name = true) ∧
        ((t.get? (here ++ [name]) = some .closed ∧ names ≠ [] ∧ fault = .denied) ∨
        (t.get? (here ++ [name]) = some .directory ∧
            descend t create onLink (here ++ [name]) names = .error fault) ∨
          ∃ target, t.get? (here ++ [name]) = some (.link target) ∧
            onLink (linkStart here target) (Path.namesOf target ++ names) = .error fault)) := by
  have hnot : fault ≠ .notFound ∧ fault ≠ .notADirectory := by
    rcases hfault with rfl | rfl | rfl <;> decide
  rw [descend]
  by_cases hname : name = ['.', '.']
  · simp [hname]
  by_cases hshort : isShortName name = true
  · simp only [hname, hshort, Bool.not_true, Bool.false_eq_true, Bool.true_eq_false, ↓reduceIte, false_and, and_false,
      false_or, not_false_eq_true, true_and, ne_eq]
    cases hget : t.get? (here ++ [name]) with
    | none => cases create <;> cases names <;> simp [hnot.1.symm]
    | some e =>
      cases e with
      | directory => simp
      | file content => cases names <;> simp [hnot.2.symm]
      | locked => cases names <;> simp [hnot.2.symm]
      | closed => cases names <;> simp [eq_comm]
      | link target =>
        unfold linkStart
        cases hanchor : Path.anchorOf target <;> simp [hanchor]
  · simp [hname, hshort, eq_comm]

theorem stat_eq_error_iff (hfault : IsOnWay fault) : t.stat p = .error fault ↔ t.follow p = .error fault := by
  have hnot : fault ≠ .notFound := by
    rcases hfault with rfl | rfl | rfl <;> decide
  cases hf : t.follow p with
  | error fault => simp [stat, hf, bind, Except.bind]
  | ok loc => cases hget : t.get? loc <;> simp [stat, hf, hget, hnot.symm, bind, Except.bind]

theorem SameWays.descend_error_iff (h : SameWays t t') (hfault : IsOnWay fault)
    (hon : ∀ here names, onLink' here names = .error fault ↔ onLink here names = .error fault) :
    descend t' create onLink' here names = .error fault ↔ descend t create onLink here names = .error fault := by
  induction names generalizing here with
  | nil => simp [descend]
  | cons name names ih =>
    rw [descend_cons_eq_error_iff hfault, descend_cons_eq_error_iff hfault]
    simp only [ih, h.directory, h.closed, h.link, hon]

theorem SameWays.stat_error_iff (h : SameWays t t') (hfault : IsOnWay fault) :
    t'.stat p = .error fault ↔ t.stat p = .error fault := by
  have hwithin : ∀ links here names, followWithin t' false links here names = .error fault ↔
      followWithin t false links here names = .error fault := by
    intro links
    induction links with
    | zero => exact fun here names => h.descend_error_iff hfault fun _ _ => Iff.rfl
    | succ links ih => exact fun here names => h.descend_error_iff hfault ih
  rw [stat_eq_error_iff hfault, stat_eq_error_iff hfault, follow, follow, h.startOf_eq]
  exact hwithin _ _ _

/-- Where there is nothing in one tree there is nothing in the other one or a file, and where asking fails
in one tree it fails in the other one. -/
theorem SameWays.absent_of_stat (h : SameWays t t') (hstat : t.stat p = .error fault) (hstat' : t'.stat p = .ok e) :
    fault.meansAbsent = true ∧ e.isDirectory = false := by
  constructor
  · rcases meansAbsent_or_of_stat hstat with habsent | hway
    · exact habsent
    · rw [(h.stat_error_iff (.inr hway)).2 hstat] at hstat'
      cases hstat'
  · have hdir := h.isDirectory_eq p
    rwa [isDirectory, isDirectory, hstat, hstat'] at hdir

/-- Faults in both trees differ only in why nothing is there. -/
theorem SameWays.eq_or_notThere {fault' : Fault} (h : SameWays t t') (hstat : t.stat p = .error fault)
    (hstat' : t'.stat p = .error fault') : fault = fault' ∨
      ((fault = .notFound ∨ fault = .notADirectory) ∧ (fault' = .notFound ∨ fault' = .notADirectory)) := by
  by_cases hway : IsOnWay fault
  · rw [(h.stat_error_iff hway).2 hstat] at hstat'
    exact .inl (Except.error.inj hstat')
  by_cases hway' : IsOnWay fault'
  · rw [(h.stat_error_iff hway').1 hstat'] at hstat
    exact .inl (Except.error.inj hstat).symm
  refine .inr ⟨?_, ?_⟩
  · have hkind := meansAbsent_or_of_stat hstat
    cases fault <;> simp_all [IsOnWay, Fault.meansAbsent]
  · have hkind := meansAbsent_or_of_stat hstat'
    cases fault' <;> simp_all [IsOnWay, Fault.meansAbsent]

theorem SameWays.map_probe_eq (h : SameWays t t') (p : Path) :
    (t'.probe p).map (·.any Entry.isDirectory) = (t.probe p).map (·.any Entry.isDirectory) := by
  unfold probe
  rcases hstat : t.stat p with fault | e <;> rcases hstat' : t'.stat p with fault' | e'
  · rcases h.eq_or_notThere hstat hstat' with rfl | ⟨rfl | rfl, rfl | rfl⟩ <;> rfl
  · obtain ⟨habsent, hnot⟩ := h.absent_of_stat hstat hstat'
    simp [Except.map, habsent, hnot]
  · obtain ⟨habsent, hnot⟩ := h.symm.absent_of_stat hstat' hstat
    simp [Except.map, habsent, hnot]
  · have hdir := h.isDirectory_eq p
    simpa [isDirectory, hstat, hstat', Except.map] using hdir

/-- Whether a directory is found, and whether there is an answer at all, does not depend on files. -/
theorem SameWays.map_found?_eq (h : SameWays t t') (p : Path) :
    (t'.found? p).map (·.any Entry.isDirectory) = (t.found? p).map (·.any Entry.isDirectory) := by
  unfold found?
  split
  · rfl
  split
  · exact h.map_probe_eq p
  · rfl

theorem SameWays.probe_eq (h : SameWays t t') (hp : ∀ loc, t.landing p = .ok loc → t'.get? loc = t.get? loc) :
    t'.probe p = t.probe p := by
  unfold probe
  rcases hstat : t.stat p with fault | e
  · rcases hstat' : t'.stat p with fault' | e'
    · rcases h.eq_or_notThere hstat hstat' with rfl | ⟨rfl | rfl, rfl | rfl⟩ <;> rfl
    · rw [(h.stat_iff hp).1 hstat'] at hstat
      cases hstat
  · rw [(h.stat_iff hp).2 hstat]

/-! ### Trees that differ in files -/

/-- The trees are the same but for their files. -/
structure SameButFiles (t t' : FileTree) : Prop extends SameWays t t' where
  home : t'.home = t.home
  homes : t'.homes = t.homes

namespace SameButFiles

theorem refl (t : FileTree) : SameButFiles t t := ⟨.refl t, rfl, rfl⟩

theorem found?_eq (h : SameButFiles t t') (hp : ∀ loc, t.landing p = .ok loc → t'.get? loc = t.get? loc) :
    t'.found? p = t.found? p := by
  rw [found?, found?, h.probe_eq hp]

theorem read_eq_of_isFile (h : SameButFiles t t') (hp : ∀ loc, t.landing p = .ok loc → t'.get? loc = t.get? loc)
    (hfile : t.isFile p = true) : t'.read p = t.read p := by
  obtain ⟨e, hstat, -⟩ := isFile_iff.1 hfile
  rw [read, read, hstat, (h.stat_iff hp).2 hstat]

theorem pathExists_eq (h : SameButFiles t t')
    (hp : ∀ loc, t.landing p = .ok loc → (t'.get? loc).isSome = (t.get? loc).isSome) :
    t'.pathExists p = t.pathExists p := by
  have hiff : ∀ u : FileTree, u.pathExists p = true ↔ ∃ loc, u.landing p = .ok loc ∧ (u.get? loc).isSome = true := by
    intro u
    simp only [pathExists_iff, stat_eq_ok_iff, Option.isSome_iff_exists]
    constructor
    · rintro ⟨e, loc, hland, hget⟩
      exact ⟨loc, hland, e, hget⟩
    · rintro ⟨loc, hland, e, hget⟩
      exact ⟨e, loc, hland, hget⟩
  rw [Bool.eq_iff_iff, hiff, hiff]
  refine exists_congr fun loc => ?_
  rw [h.landing_iff]
  refine and_congr_right fun hland => ?_
  rw [hp loc hland]

end SameButFiles

end GenScope.FileTree
