import GenScope.FileTree.Write
import GenScope.Proofs.FileTree.Lookup

/-!
# What writing leaves alone

A file is written where its path leads, and there is a file already or nothing at all (`IsFree`).
Directories and links are therefore never written over, and files stay files (`Extends`), so that every path goes
on leading where it led (`Extends.follow_eq`, `Extends.landing_iff`). What lies outside the places
that are written to is as it was (`WrittenAt`).
-/

namespace GenScope

/-- No path leads on behind the entry, and it is no link: a file, or a directory that may not be entered. -/
def Entry.isEnd : Entry → Bool
  | .file _ | .locked | .closed => true
  | .directory | .link _ => false

namespace FileTree

variable {t u before after : FileTree} {here loc : Location} {name : Text} {names : List Text}
  {p : Path} {create : Bool} {onLink onLink' : Location → List Text → Except Fault Location}
  {content : Bytes} {places places' : Location → Prop}

/-! ### Going down -/

/-- A path may end there, and may not lead on. -/
def CanEnd (t : FileTree) (create : Bool) (loc : Location) : Prop :=
  (create = true ∧ t.get? loc = none) ∨ (t.get? loc).any Entry.isEnd = true

theorem canEnd_true_iff : t.CanEnd true loc ↔
    t.get? loc ≠ some .directory ∧ ∀ target, t.get? loc ≠ some (.link target) := by
  unfold CanEnd
  cases t.get? loc with
  | none => simp
  | some e => cases e <;> simp [Entry.isEnd]

/-- Where the target of a link starts that lies in a directory. -/
def linkStart (here : Location) (target : Text) : Location :=
  match Path.anchorOf target with
  | .relative => here
  | _ => []

theorem descend_cons_eq_ok_iff : descend t create onLink here (name :: names) = .ok loc ↔
    (name = ['.', '.'] ∧ descend t create onLink here.dropLast names = .ok loc) ∨
    ((name ≠ ['.', '.'] ∧ isShortName name = true) ∧
      ((t.get? (here ++ [name]) = some .directory ∧ descend t create onLink (here ++ [name]) names = .ok loc) ∨
        (t.CanEnd create (here ++ [name]) ∧ names = [] ∧ loc = here ++ [name]) ∨
        ∃ target, t.get? (here ++ [name]) = some (.link target) ∧
          onLink (linkStart here target) (Path.namesOf target ++ names) = .ok loc)) := by
  rw [descend]
  by_cases hname : name = ['.', '.']
  · simp [hname]
  by_cases hshort : isShortName name = true
  · simp only [hname, hshort, Bool.not_true, Bool.false_eq_true, ↓reduceIte, false_and, false_or,
      not_false_eq_true, true_and, ne_eq, CanEnd]
    cases hget : t.get? (here ++ [name]) with
    | none => cases create <;> cases names <;> simp [eq_comm]
    | some e =>
      cases e with
      | directory => simp [Entry.isEnd]
      | file content => cases names <;> simp [Entry.isEnd, eq_comm]
      | locked => cases names <;> simp [Entry.isEnd, eq_comm]
      | closed => cases names <;> simp [Entry.isEnd, eq_comm]
      | link target =>
        unfold linkStart
        cases hanchor : Path.anchorOf target <;> simp [hanchor, Entry.isEnd]
  · simp [hname, hshort]

/-- Wherever a path leads in `t`, it leads in `u`. -/
structure LeadsAs (create : Bool) (t u : FileTree) : Prop where
  workingDir : u.workingDir = t.workingDir
  directory : ∀ loc, t.get? loc = some .directory → u.get? loc = some .directory
  link : ∀ loc target, t.get? loc = some (.link target) → u.get? loc = some (.link target)
  ending : ∀ loc, t.CanEnd create loc → u.CanEnd create loc

namespace LeadsAs

theorem descend_eq (h : LeadsAs create t u)
    (hon : ∀ here names, onLink here names = .ok loc → onLink' here names = .ok loc)
    (hd : descend t create onLink here names = .ok loc) : descend u create onLink' here names = .ok loc := by
  induction names generalizing here with
  | nil => exact hd
  | cons name names ih =>
    rw [descend_cons_eq_ok_iff] at hd ⊢
    rcases hd with ⟨hname, hd⟩ | ⟨hname, ⟨hget, hd⟩ | ⟨hend, hd⟩ | ⟨target, hget, hd⟩⟩
    · exact .inl ⟨hname, ih hd⟩
    · exact .inr ⟨hname, .inl ⟨h.directory _ hget, ih hd⟩⟩
    · exact .inr ⟨hname, .inr (.inl ⟨h.ending _ hend, hd⟩)⟩
    · exact .inr ⟨hname, .inr (.inr ⟨target, h.link _ _ hget, hon _ _ hd⟩)⟩

theorem followWithin_eq (h : LeadsAs create t u) {links : Nat}
    (hd : followWithin t create links here names = .ok loc) :
    followWithin u create links here names = .ok loc := by
  induction links generalizing here names with
  | zero => exact h.descend_eq (fun _ _ hon => by cases hon) hd
  | succ links ih => exact h.descend_eq (fun _ _ hon => ih hon) hd

theorem startOf_eq (h : LeadsAs create t u) (p : Path) : u.startOf p = t.startOf p := by
  unfold startOf
  rw [h.workingDir]

end LeadsAs

theorem startOf_of_anchor (hp : p.anchor ≠ .relative) : t.startOf p = [] := by
  unfold startOf
  split <;> simp_all

theorem WellFormed.get?_dropLast (h : t.WellFormed) (hdir : t.get? here = some .directory) :
    t.get? here.dropLast = some .directory := by
  rcases List.eq_nil_or_concat here with rfl | ⟨dir, last, rfl⟩
  · exact hdir
  · rw [List.concat_eq_append] at hdir ⊢
    rw [List.dropLast_concat]
    exact h.parent hdir

theorem WellFormed.descend_not_link (h : t.WellFormed) (hdir : t.get? here = some .directory)
    (hon : ∀ here names, t.get? here = some .directory → onLink here names = .ok loc →
      ∀ target, t.get? loc ≠ some (.link target))
    (hd : descend t create onLink here names = .ok loc) : ∀ target, t.get? loc ≠ some (.link target) := by
  induction names generalizing here with
  | nil =>
    obtain rfl := Except.ok.inj hd
    simp [hdir]
  | cons name names ih =>
    rcases descend_cons_eq_ok_iff.1 hd with ⟨-, hd⟩ | ⟨-, ⟨hget, hd⟩ | ⟨hend, -, rfl⟩ | ⟨other, hget, hd⟩⟩
    · exact ih (h.get?_dropLast hdir) hd
    · exact ih hget hd
    · exact fun target hget => by simp [CanEnd, hget, Entry.isEnd] at hend
    · refine hon _ _ ?_ hd
      unfold linkStart
      split
      · exact hdir
      · exact get?_nil t

theorem WellFormed.followWithin_not_link (h : t.WellFormed) {links : Nat} (hdir : t.get? here = some .directory)
    (hd : followWithin t create links here names = .ok loc) : ∀ target, t.get? loc ≠ some (.link target) := by
  induction links generalizing here names with
  | zero => exact h.descend_not_link hdir (fun _ _ _ hon => by cases hon) hd
  | succ links ih => exact h.descend_not_link hdir (fun _ _ hdir hon => ih hdir hon) hd

/-! ### Trees with the same directories and links -/

/-- Directories and links are the same, so that paths lead to the same places. -/
structure SameWays (t u : FileTree) : Prop where
  workingDir : u.workingDir = t.workingDir
  directory : ∀ loc, u.get? loc = some .directory ↔ t.get? loc = some .directory
  closed : ∀ loc, u.get? loc = some .closed ↔ t.get? loc = some .closed
  link : ∀ loc target, u.get? loc = some (.link target) ↔ t.get? loc = some (.link target)

namespace SameWays

theorem refl (t : FileTree) : SameWays t t := ⟨rfl, fun _ => Iff.rfl, fun _ => Iff.rfl, fun _ _ => Iff.rfl⟩

theorem symm (h : SameWays t u) : SameWays u t where
  workingDir := h.workingDir.symm
  directory loc := (h.directory loc).symm
  closed loc := (h.closed loc).symm
  link loc target := (h.link loc target).symm

theorem startOf_eq (h : SameWays t u) (p : Path) : u.startOf p = t.startOf p := by
  unfold startOf
  rw [h.workingDir]

/-- A path that may be created leads to the same place, whatever files there are. -/
theorem leadsAs (h : SameWays t u) : LeadsAs true t u where
  workingDir := h.workingDir
  directory loc := (h.directory loc).2
  link loc target := (h.link loc target).2
  ending loc hend := by
    rw [canEnd_true_iff] at hend ⊢
    exact ⟨mt (h.directory loc).1 hend.1, fun target => mt (h.link loc target).1 (hend.2 target)⟩

theorem landing_iff (h : SameWays t u) : u.landing p = .ok loc ↔ t.landing p = .ok loc := by
  rw [landing, landing, h.startOf_eq]
  exact ⟨h.symm.leadsAs.followWithin_eq, h.leadsAs.followWithin_eq⟩

end SameWays

/-! ### Trees with more files -/

/-- The tree `after` has the directories, the links and the files of `before`; a file may hold
something else, and there may be more files. -/
structure Extends (before after : FileTree) : Prop extends SameWays before after where
  locked : ∀ loc, after.get? loc = some .locked ↔ before.get? loc = some .locked
  file : ∀ loc content, before.get? loc = some (.file content) → ∃ content, after.get? loc = some (.file content)

namespace Extends

theorem refl (t : FileTree) : Extends t t := ⟨.refl t, fun _ => Iff.rfl, fun _ content h => ⟨content, h⟩⟩

theorem trans (h : Extends before t) (h' : Extends t after) : Extends before after where
  workingDir := h'.workingDir.trans h.workingDir
  directory loc := (h'.directory loc).trans (h.directory loc)
  closed loc := (h'.closed loc).trans (h.closed loc)
  link loc target := (h'.link loc target).trans (h.link loc target)
  locked loc := (h'.locked loc).trans (h.locked loc)
  file loc content hget := by
    obtain ⟨content', hget'⟩ := h.file loc content hget
    exact h'.file loc content' hget'

theorem exists_get? (h : Extends before after) {e : Entry} (hget : before.get? loc = some e) :
    ∃ e, after.get? loc = some e := by
  cases e with
  | directory => exact ⟨_, (h.directory loc).2 hget⟩
  | closed => exact ⟨_, (h.closed loc).2 hget⟩
  | link target => exact ⟨_, (h.link loc target).2 hget⟩
  | locked => exact ⟨_, (h.locked loc).2 hget⟩
  | file content =>
    obtain ⟨content', hget'⟩ := h.file loc content hget
    exact ⟨_, hget'⟩

theorem leadsAs (h : Extends before after) : LeadsAs false before after where
  workingDir := h.workingDir
  directory loc := (h.directory loc).2
  link loc target := (h.link loc target).2
  ending loc hend := by
    have hfile : (before.get? loc).any Entry.isEnd = true := by simpa [CanEnd] using hend
    obtain ⟨e, hget, he⟩ := (Option.any_eq_true _ _).1 hfile
    refine .inr ?_
    cases e with
    | file content =>
      obtain ⟨content', hget'⟩ := h.file loc content hget
      rw [hget']
      rfl
    | locked =>
      rw [(h.locked loc).2 hget]
      rfl
    | closed =>
      rw [(h.closed loc).2 hget]
      rfl
    | directory => cases he
    | link target => cases he

theorem follow_eq (h : Extends before after) (hf : before.follow p = .ok loc) : after.follow p = .ok loc := by
  rw [follow, h.startOf_eq]
  exact h.leadsAs.followWithin_eq hf

theorem landing_iff (h : Extends before after) : after.landing p = .ok loc ↔ before.landing p = .ok loc :=
  h.toSameWays.landing_iff

theorem pathExists (h : Extends before after) (hp : before.pathExists p = true) : after.pathExists p = true := by
  cases hf : before.follow p with
  | error fault => simp [FileTree.pathExists, stat, hf, bind, Except.bind, Except.isOk, Except.toBool] at hp
  | ok loc =>
    cases hget : before.get? loc with
    | none => simp [FileTree.pathExists, stat, hf, hget, bind, Except.bind, Except.isOk, Except.toBool] at hp
    | some e =>
      obtain ⟨e', ha⟩ := h.exists_get? hget
      simp [FileTree.pathExists, stat, h.follow_eq hf, ha, bind, Except.bind, Except.isOk, Except.toBool]

end Extends

/-! ### Writing -/

/-- The tree `after` is `before` with files written at some of the given places. What is not a file
at one of them is met by scans as before, in the same order. -/
structure WrittenAt (before : FileTree) (places : Location → Prop) (after : FileTree) : Prop
    extends Extends before after where
  kept : ∀ keep : Location × Entry → Bool, (∀ x, keep x = true → places x.1 → x.2.isFile = false) →
    after.entries.filter keep = before.entries.filter keep

namespace WrittenAt

theorem refl (t : FileTree) (places : Location → Prop) : WrittenAt t places t :=
  ⟨.refl t, fun _ _ => rfl⟩

theorem mono (h : WrittenAt before places after) (hsub : ∀ loc, places loc → places' loc) :
    WrittenAt before places' after :=
  ⟨h.toExtends, fun keep hkeep => h.kept keep fun x hx hp => hkeep x hx (hsub x.1 hp)⟩

theorem trans (h : WrittenAt before places t) (h' : WrittenAt t places after) : WrittenAt before places after :=
  ⟨h.toExtends.trans h'.toExtends, fun keep hkeep => (h'.kept keep hkeep).trans (h.kept keep hkeep)⟩

theorem outside (h : WrittenAt before places after) (hloc : ¬ places loc) : after.get? loc = before.get? loc := by
  by_cases hne : loc = []
  · rw [hne, get?_nil, get?_nil]
  · have hkept : after.entries.filter (fun x => x.1 = loc) = before.entries.filter fun x => x.1 = loc :=
      h.kept _ fun x hx hp => absurd (of_decide_eq_true hx ▸ hp) hloc
    rw [get?, get?, if_neg hne, if_neg hne, ← List.head?_filter, ← List.head?_filter, hkept]

theorem read_eq (h : WrittenAt before places after) (hread : before.read p = .ok content)
    (hp : ∀ loc, before.follow p = .ok loc → ¬ places loc) : after.read p = .ok content := by
  cases hf : before.follow p with
  | error fault => simp [FileTree.read, stat, hf, bind, Except.bind] at hread
  | ok loc =>
    have hget := h.outside (hp loc hf)
    have hstat : after.stat p = before.stat p := by
      simp only [stat, hf, h.follow_eq hf, bind, Except.bind, hget]
    rw [FileTree.read, hstat]
    exact hread

end WrittenAt

/-- Nothing is there but a file that may be written to, if anything. -/
def IsFree (t : FileTree) (loc : Location) : Prop := ∀ e, t.get? loc = some e → ∃ content, e = .file content

theorem IsFree.ne_nil (h : t.IsFree loc) : loc ≠ [] := by
  rintro rfl
  obtain ⟨_, heq⟩ := h _ (get?_nil t)
  cases heq

theorem IsFree.of_none (h : t.get? loc = none) : t.IsFree loc := by
  intro e hget
  rw [h] at hget
  cases hget

theorem IsFree.not_isDirectory (h : t.IsFree loc) {e : Entry} (hget : t.get? loc = some e) : e.isDirectory = false := by
  obtain ⟨content, rfl⟩ := h e hget
  rfl

theorem isFree_iff_forall : t.IsFree loc ↔ t.get? loc ≠ some .directory ∧ t.get? loc ≠ some .closed ∧
    t.get? loc ≠ some .locked ∧ ∀ target, t.get? loc ≠ some (.link target) := by
  unfold IsFree
  cases t.get? loc with
  | none => simp
  | some e => cases e <;> simp

theorem Extends.isFree_iff (h : Extends before after) : after.IsFree loc ↔ before.IsFree loc := by
  simp only [isFree_iff_forall, ne_eq, h.directory, h.closed, h.locked, h.link]

theorem of_write_eq_ok (hw : t.write p content = .ok u) : ∃ loc, t.landing p = .ok loc ∧
    ((∀ target, t.get? loc ≠ some (.link target)) → t.IsFree loc) ∧ u = t.insert loc (.file content) := by
  unfold FileTree.write at hw
  cases hl : t.landing p with
  | error fault => simp [hl, bind, Except.bind] at hw
  | ok loc =>
    cases hget : t.get? loc with
    | none => exact ⟨loc, rfl, fun _ => .of_none hget, by simpa [hl, hget, bind, Except.bind, eq_comm] using hw⟩
    | some e =>
      refine ⟨loc, rfl, fun hlink e' hget' => ?_, ?_⟩
      · obtain rfl := Option.some.inj (hget.symm.trans hget')
        cases e <;> simp_all [bind, Except.bind]
      · cases e <;> simp_all [bind, Except.bind]

theorem write_of_isFree (hland : t.landing p = .ok loc) (h : t.IsFree loc) (content : Bytes) :
    t.write p content = .ok (t.insert loc (.file content)) := by
  unfold write
  rw [hland]
  cases hget : t.get? loc with
  | none => simp [hget, bind, Except.bind]
  | some e =>
    obtain ⟨old, rfl⟩ := h e hget
    simp [hget, bind, Except.bind]

theorem filter_place {keep : Location × Entry → Bool} {e : Entry} {es : List (Location × Entry)}
    (hnew : keep (loc, e) = false) (hold : ∀ x ∈ es, x.1 = loc → keep x = false) :
    (place loc e es).filter keep = es.filter keep := by
  unfold place
  split
  · rw [List.filter_map]
    have hkeep : es.filter (keep ∘ fun x => if x.1 = loc then (loc, e) else x) = es.filter keep := by
      refine List.filter_congr fun x hx => ?_
      by_cases hloc : x.1 = loc
      · simp [hloc, hnew, hold x hx hloc]
      · simp [hloc]
    rw [hkeep]
    refine (List.map_congr_left fun x hx => ?_).trans (List.map_id _)
    obtain ⟨hx, hkept⟩ := List.mem_filter.1 hx
    refine if_neg fun hloc => ?_
    rw [hold x hx hloc] at hkept
    cases hkept
  · rw [List.filter_append, List.filter_cons_of_neg (by simp [hnew]), ← List.filter_append,
      List.takeWhile_append_dropWhile]

/-- A file that is put where there is nothing else leaves everything but files alone. -/
theorem WrittenAt.insert (hfree : t.IsFree loc) (content : Bytes) :
    WrittenAt t (· = loc) (t.insert loc (.file content)) := by
  have hget : ∀ here, (t.insert loc (.file content)).get? here =
      if here = loc then some (.file content) else t.get? here := fun here => get?_insert t hfree.ne_nil here _
  have hsame : ∀ here e, (∀ old, e ≠ .file old) →
      ((t.insert loc (.file content)).get? here = some e ↔ t.get? here = some e) := by
    intro here e he
    rw [hget]
    split
    · rename_i heq
      rw [heq]
      refine iff_of_false ?_ fun hold => ?_
      · exact fun hnew => he content (Option.some.inj hnew).symm
      · obtain ⟨old, rfl⟩ := hfree e hold
        exact he old rfl
    · rfl
  refine ⟨⟨⟨rfl, fun here => hsame here _ (by simp), fun here => hsame here _ (by simp),
    fun here target => hsame here _ (by simp)⟩, fun here => hsame here _ (by simp), fun here old hold => ?_⟩,
    fun keep hkeep => ?_⟩
  · rw [hget]
    split
    · exact ⟨content, rfl⟩
    · exact ⟨old, hold⟩
  · refine filter_place ?_ fun x hx hloc => ?_
    · refine Bool.eq_false_iff.2 fun hkept => ?_
      cases hkeep _ hkept rfl
    · refine Bool.eq_false_iff.2 fun hkept => ?_
      have hfile := hkeep x hkept hloc
      have hx : t.get? loc = some x.2 := (mem_entries_iff_of_ne hfree.ne_nil).1 (hloc ▸ hx)
      obtain ⟨old, hold⟩ := hfree _ hx
      rw [hold] at hfile
      cases hfile

/-- A file that is written to the path comes to lie there. -/
def Receives (t : FileTree) (p : Path) (loc : Location) : Prop :=
  t.landing p = .ok loc ∧ t.IsFree loc

theorem Extends.write (h : Extends before t) (hwf : before.WellFormed) (hp : p.anchor ≠ .relative)
    (hw : t.write p content = .ok u) : WrittenAt t (before.Receives p) u := by
  obtain ⟨there, hl, hfree, rfl⟩ := of_write_eq_ok hw
  have hland : before.landing p = .ok there := h.landing_iff.1 hl
  have hlink : ∀ target, t.get? there ≠ some (.link target) := by
    intro target hget
    rw [landing, startOf_of_anchor hp] at hland
    exact hwf.followWithin_not_link (get?_nil before) hland target ((h.link there target).1 hget)
  refine (WrittenAt.insert (hfree hlink) content).mono ?_
  rintro loc rfl
  exact ⟨hland, h.isFree_iff.1 (hfree hlink)⟩

theorem Extends.copy (h : Extends before t) (hwf : before.WellFormed) (hp : p.anchor ≠ .relative) {source : Path}
    (hc : t.copy source p = .ok u) : WrittenAt t (before.Receives p) u := by
  unfold FileTree.copy at hc
  split at hc
  · cases hc
  · split at hc
    · cases hc
    · rename_i bytes _
      cases hw : t.write p bytes with
      | error fault => simp [hw, Except.mapError] at hc
      | ok v =>
        obtain rfl : v = u := by simpa [hw, Except.mapError] using hc
        exact h.write hwf hp hw

end FileTree

end GenScope
