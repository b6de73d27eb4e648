import GenScope.Proofs.FileTree.Frame

/-!
# Files written into one directory

A tree to which files were written in one directory is the tree before, with the file that was
written last under each name of the directory (`Overlay`). Writing and copying into the directory
keep this, with one more write (`Overlay.write`, `Overlay.copy`).
-/

namespace GenScope

/-- What was written last under a name. -/
def lastWrite (name : Text) : List (Text × Bytes) → Option Bytes
  | [] => none
  | (other, content) :: writes => (lastWrite name writes).or (if other = name then some content else none)

theorem lastWrite_append (name : Text) (u v : List (Text × Bytes)) :
    lastWrite name (u ++ v) = (lastWrite name v).or (lastWrite name u) := by
  induction u with
  | nil => simp [lastWrite]
  | cons w u ih => rw [List.cons_append, lastWrite, lastWrite, ih, Option.or_assoc]

theorem lastWrite_eq_none {name : Text} {writes : List (Text × Bytes)} (h : ∀ w ∈ writes, w.1 ≠ name) :
    lastWrite name writes = none := by
  induction writes with
  | nil => rfl
  | cons w writes ih =>
    rw [List.forall_mem_cons] at h
    rw [lastWrite, ih h.2, if_neg h.1, Option.or_none]

theorem lastWrite_of_forall {name : Text} {writes : List (Text × Bytes)} {content : Bytes}
    (h : ∀ w ∈ writes, w.2 = content) (hname : ∃ w ∈ writes, w.1 = name) : lastWrite name writes = some content := by
  induction writes with
  | nil => simp at hname
  | cons w writes ih =>
    rw [List.forall_mem_cons] at h
    rw [lastWrite]
    by_cases hlater : ∃ w ∈ writes, w.1 = name
    · rw [ih h.2 hlater, Option.some_or]
    · have hnone : lastWrite name writes = none := lastWrite_eq_none fun w hw hname => hlater ⟨w, hw, hname⟩
      have hw : w.1 = name := by simpa [hlater] using hname
      rw [hnone, if_pos hw, h.1, Option.none_or]

namespace FileTree

/-- The tree `after` is `before` with files written into a directory. -/
structure Overlay (before : FileTree) (dir : Location) (writes : List (Text × Bytes))
    (after : FileTree) : Prop where
  wellFormed : after.WellFormed
  linkFree : after.LinkFree
  outside : ∀ loc, (∀ name, loc ≠ dir ++ [name]) → after.get? loc = before.get? loc
  inside : ∀ name, after.get? (dir ++ [name]) = (lastWrite name writes).map .file

variable {t before after : FileTree} {dir loc : Location} {writes : List (Text × Bytes)} {name : Text}
  {content : Bytes}

theorem Overlay.start (h : t.WellFormed) (hl : t.LinkFree) (hempty : ∀ name, t.get? (dir ++ [name]) = none) :
    Overlay t dir [] t :=
  ⟨h, hl, fun _ _ => rfl, hempty⟩

theorem Overlay.get?_dir (h : Overlay before dir writes after) : after.get? dir = before.get? dir :=
  h.outside dir fun name hdir => by simpa using congrArg List.length hdir

theorem Overlay.write (h : Overlay before dir writes after) (hdir : before.get? dir = some .directory)
    (hname : IsEntryName name) (hshort : isShortName name = true) (content : Bytes) :
    ∃ t, after.write ⟨.top, dir ++ [name]⟩ content = .ok t ∧
      Overlay before dir (writes ++ [(name, content)]) t := by
  have hdir' : after.get? dir = some .directory := h.get?_dir.trans hdir
  have hfree : after.IsFree (dir ++ [name]) := by
    intro e hget
    rw [h.inside name] at hget
    obtain ⟨old, -, rfl⟩ := Option.map_eq_some_iff.1 hget
    exact ⟨old, rfl⟩
  refine ⟨after.insert (dir ++ [name]) (.file content), ?_, ?_, ?_, fun loc hloc => ?_, fun other => ?_⟩
  · exact write_of_isFree (h.wellFormed.landing_top h.linkFree hdir' hname hshort) hfree content
  · refine h.wellFormed.insert hdir' hname hshort (.inr fun hget => ?_)
    obtain ⟨old, heq⟩ := hfree _ hget
    cases heq
  · exact h.linkFree.insert (by simp)
  · rw [get?_insert after (by simp), if_neg (hloc name), h.outside loc hloc]
  · rw [get?_insert after (by simp), lastWrite_append]
    by_cases hother : other = name
    · simp [hother, lastWrite]
    · simp [hother, Ne.symm hother, lastWrite, h.inside other]

theorem Overlay.copy (h : Overlay before dir writes after) (hdir : before.get? dir = some .directory)
    (hname : IsEntryName name) (hshort : isShortName name = true) (hloc : ∀ name, loc ≠ dir ++ [name])
    (hfile : before.get? loc = some (.file content)) :
    ∃ t, after.copy ⟨.top, loc⟩ ⟨.top, dir ++ [name]⟩ = .ok t ∧
      Overlay before dir (writes ++ [(name, content)]) t := by
  have hget : after.get? loc = some (.file content) := (h.outside loc hloc).trans hfile
  have hdots : ['.', '.'] ∉ loc := h.wellFormed.dots_not_mem hget
  have hread : after.read ⟨.top, loc⟩ = .ok content := (h.wellFormed.read_top_iff h.linkFree hdots).2 hget
  have htarget : ['.', '.'] ∉ dir ++ [name] :=
    h.wellFormed.dots_not_mem_append (h.get?_dir.trans hdir) (by simpa using hname)
  have hsame : after.isSamePlace ⟨.top, loc⟩ ⟨.top, dir ++ [name]⟩ = false := by
    rw [isSamePlace, h.wellFormed.follow_top h.linkFree hget]
    cases hf : after.follow ⟨.top, dir ++ [name]⟩ with
    | error fault => rfl
    | ok there =>
      obtain rfl := h.linkFree.eq_of_follow_top htarget hf
      simpa using hloc name
  obtain ⟨t, ht, hover⟩ := h.write hdir hname hshort content
  exact ⟨t, by rw [FileTree.copy, hsame, hread]; simp [ht, Except.mapError], hover⟩

end FileTree

end GenScope
