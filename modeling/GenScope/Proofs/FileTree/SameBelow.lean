import GenScope.Proofs.FileTree.Unseen

/-!
# Identical trees in two places

Two directories hold identical trees if a scan meets the same entries below them, under the same
names and in the same order (`SameBelow`). A walk then lists the same names in the same order below
both (`HoldsSame.namesBelow_eq`), and without links a path below either of them leads to the same
entry, or fails alike (`HoldsSame.stat_eq`).
-/

namespace GenScope.FileTree

variable {t t' : FileTree} {loc loc' : Location} {names names' : List Text} {p root root' : Path} {e : Entry}
  {create : Bool} {onLink onLink' : Location → List Text → Except Fault Location}

/-- The entry under its names from a location, if it lies below. -/
def below? (loc : Location) (x : Location × Entry) : Option (List Text × Entry) :=
  if loc.isPrefixOf x.1 ∧ x.1 ≠ loc then some (x.1.drop loc.length, x.2) else none

/-- The entries below a location under their names from there, in the order in which a scan meets
them. -/
def entriesBelow (t : FileTree) (loc : Location) : List (List Text × Entry) := t.entries.filterMap (below? loc)

/-- The same entries lie at and below both locations, under the same names and in the same order. -/
structure SameBelow (t : FileTree) (loc : Location) (t' : FileTree) (loc' : Location) : Prop where
  root : t.get? loc = t'.get? loc'
  below : t.entriesBelow loc = t'.entriesBelow loc'

/-! ### Entries below a location -/

theorem below?_eq_some_iff {x : Location × Entry} :
    below? loc x = some (names, e) ↔ x = (loc ++ names, e) ∧ names ≠ [] := by
  obtain ⟨there, e'⟩ := x
  unfold below?
  constructor
  · intro hif
    split at hif
    · rename_i hcond
      obtain ⟨hp, hne⟩ := hcond
      obtain ⟨u, rfl⟩ := List.isPrefixOf_iff_prefix.1 hp
      obtain ⟨rfl, rfl⟩ : u = names ∧ e' = e := by simpa using hif
      exact ⟨rfl, by simpa using hne⟩
    · cases hif
  · rintro ⟨heq, hnames⟩
    cases heq
    simp [hnames, List.isPrefixOf_iff_prefix]

theorem mem_entriesBelow : (names, e) ∈ t.entriesBelow loc ↔ names ≠ [] ∧ t.get? (loc ++ names) = some e := by
  simp only [entriesBelow, List.mem_filterMap, below?_eq_some_iff]
  constructor
  · rintro ⟨_, hx, rfl, hnames⟩
    exact ⟨hnames, (mem_entries_iff_of_ne (by simp [hnames])).1 hx⟩
  · rintro ⟨hnames, hget⟩
    exact ⟨_, mem_of_get? (by simp [hnames]) hget, rfl, hnames⟩

theorem entriesBelow_append (t : FileTree) (loc : Location) {dir : List Text} (hdir : dir ≠ []) :
    t.entriesBelow (loc ++ dir) = (t.entriesBelow loc).filterMap (below? dir) := by
  rw [entriesBelow, entriesBelow, List.filterMap_filterMap]
  refine List.filterMap_congr fun x _ => Option.ext fun y => ?_
  obtain ⟨names, e⟩ := y
  simp only [below?_eq_some_iff, Option.bind_eq_some_iff, Prod.exists]
  constructor
  · rintro ⟨rfl, hnames⟩
    exact ⟨dir ++ names, e, ⟨by simp, by simp [hdir]⟩, rfl, hnames⟩
  · rintro ⟨_, _, ⟨rfl, -⟩, heq, hnames⟩
    obtain ⟨rfl, rfl⟩ := Prod.mk.inj heq
    exact ⟨by simp, hnames⟩

theorem directoriesBelow_eq (t : FileTree) (loc : Location) : t.directoriesBelow loc =
    [] :: (t.entriesBelow loc).filterMap fun x => if x.2 = .directory then some x.1 else none := by
  rw [directoriesBelow, entriesBelow, List.filterMap_filterMap]
  congr 1
  refine List.filterMap_congr fun x _ => Option.ext fun names => ?_
  rw [directoryBelow_eq_some_iff, Option.bind_eq_some_iff]
  simp only [Prod.exists, below?_eq_some_iff, Option.ite_none_right_eq_some, Option.some.injEq]
  constructor
  · rintro ⟨rfl, hnames⟩
    exact ⟨names, _, ⟨rfl, hnames⟩, rfl, rfl⟩
  · rintro ⟨_, _, ⟨rfl, hnames⟩, rfl, rfl⟩
    exact ⟨rfl, hnames⟩

theorem LinkFreeBelow.filesIn_eq (hl : t.LinkFreeBelow loc) : t.filesIn loc =
    (t.entriesBelow loc).filterMap fun x => if x.1.length = 1 ∧ x.2.isFile then x.1.getLast? else none := by
  rw [filesIn, entriesBelow, List.filterMap_filterMap]
  refine List.filterMap_congr fun x hx => Option.ext fun name => ?_
  rw [fileIn_eq_some_iff, Option.bind_eq_some_iff]
  obtain ⟨there, e⟩ := x
  have hlists : ∀ names, there = loc ++ names → names ≠ [] → (t.listsAsFile (there, e) = true ↔ e.isFile = true) := by
    rintro names rfl hnames
    cases e with
    | file content => exact Iff.rfl
    | locked => exact Iff.rfl
    | directory => exact Iff.rfl
    | closed => exact Iff.rfl
    | link target => exact absurd ((mem_entries_iff_of_ne (by simp [hnames])).1 hx) (hl _ target)
  simp only [Prod.exists, below?_eq_some_iff, Prod.mk.injEq]
  constructor
  · rintro ⟨hthere, hfile⟩
    exact ⟨[name], e, ⟨⟨hthere, rfl⟩, by simp⟩, by simp [(hlists _ hthere (by simp)).1 hfile]⟩
  · rintro ⟨names, _, ⟨⟨hthere, rfl⟩, hnames⟩, hif⟩
    rw [Option.ite_none_right_eq_some] at hif
    obtain ⟨⟨hlen, hfile⟩, hlast⟩ := hif
    obtain ⟨last, rfl⟩ := List.length_eq_one_iff.1 hlen
    obtain rfl : last = name := by simpa using hlast
    exact ⟨hthere, (hlists _ hthere hnames).2 hfile⟩

/-! ### Below a directory without links -/

/-- Without links below a directory, what a path leads to is the entry that its names spell. -/
theorem stat_below_iff (hwf : t.WellFormed) (hf : t.follow p = .ok loc) (hdir : t.get? loc = some .directory)
    (hl : t.LinkFreeBelow loc) (hdots : ['.', '.'] ∉ names) :
    t.stat (p.below names) = .ok e ↔ t.get? (loc ++ names) = some e := by
  rw [stat_eq_ok_iff]
  constructor
  · rintro ⟨there, hland, hget⟩
    obtain rfl := eq_of_landing_below hf hdir hl hdots hland
    exact hget
  · intro hget
    refine ⟨loc ++ names, ?_, hget⟩
    obtain ⟨onLink, hon⟩ := landing_below hf hdir names
    rw [hon]
    rcases List.eq_nil_or_concat names with rfl | ⟨dir, name, rfl⟩
    · rw [List.append_nil, descend]
    · rw [List.concat_eq_append] at hget hdots ⊢
      have hparent : t.get? (loc ++ dir) = some .directory := hwf.parent (by rwa [List.append_assoc])
      rw [hwf.descend_append hparent, descend_cons_eq_ok_iff]
      have hname : name ≠ ['.', '.'] := fun h => hdots (by simp [h])
      have hshort : isShortName name = true := hwf.short hget name (by simp)
      rw [List.append_assoc]
      cases e with
      | directory => exact .inr ⟨⟨hname, hshort⟩, .inl ⟨hget, rfl⟩⟩
      | file content => exact .inr ⟨⟨hname, hshort⟩, .inr (.inl ⟨.inr (by simp [hget, Entry.isEnd]), rfl, rfl⟩)⟩
      | locked => exact .inr ⟨⟨hname, hshort⟩, .inr (.inl ⟨.inr (by simp [hget, Entry.isEnd]), rfl, rfl⟩)⟩
      | closed => exact .inr ⟨⟨hname, hshort⟩, .inr (.inl ⟨.inr (by simp [hget, Entry.isEnd]), rfl, rfl⟩)⟩
      | link target => exact absurd hget (hl _ target)

namespace SameBelow

theorem symm (h : SameBelow t loc t' loc') : SameBelow t' loc' t loc := ⟨h.root.symm, h.below.symm⟩

theorem get?_append (h : SameBelow t loc t' loc') (names : List Text) :
    t.get? (loc ++ names) = t'.get? (loc' ++ names) := by
  by_cases hnames : names = []
  · rw [hnames, List.append_nil, List.append_nil, h.root]
  · refine Option.ext fun e => ?_
    have hmem : (names, e) ∈ t.entriesBelow loc ↔ (names, e) ∈ t'.entriesBelow loc' := by rw [h.below]
    simpa [mem_entriesBelow, hnames] using hmem

theorem linkFreeBelow (h : SameBelow t loc t' loc') (hl : t.LinkFreeBelow loc) : t'.LinkFreeBelow loc' := by
  intro names target
  rw [← h.get?_append names]
  exact hl names target

theorem append (h : SameBelow t loc t' loc') (names : List Text) :
    SameBelow t (loc ++ names) t' (loc' ++ names) := by
  by_cases hnames : names = []
  · simpa [hnames] using h
  · exact ⟨h.get?_append names, by rw [entriesBelow_append t loc hnames, entriesBelow_append t' loc' hnames, h.below]⟩

/-- Going down from either location ends alike. -/
theorem descend_eq (h : SameBelow t loc t' loc') (hl : t.LinkFreeBelow loc) (hdots : ['.', '.'] ∉ names) :
    ∃ result : Except Fault (List Text), descend t create onLink loc names = result.map (loc ++ ·) ∧
      descend t' create onLink' loc' names = result.map (loc' ++ ·) := by
  induction names generalizing loc loc' with
  | nil => exact ⟨.ok [], by simp [descend, Except.map], by simp [descend, Except.map]⟩
  | cons name names ih =>
    obtain ⟨hname, hdots⟩ := not_or.1 (mt List.mem_cons.2 hdots)
    by_cases hshort : isShortName name = true
    swap
    · exact ⟨.error .nameTooLong, by simp [descend, Ne.symm hname, hshort, Except.map],
        by simp [descend, Ne.symm hname, hshort, Except.map]⟩
    simp only [descend, if_neg (Ne.symm hname), hshort, Bool.not_true, Bool.false_eq_true, if_false,
      ← h.get?_append [name]]
    cases hget : t.get? (loc ++ [name]) with
    | none =>
      refine ⟨if create && names.isEmpty then .ok [name] else .error .notFound, ?_, ?_⟩ <;> dsimp only <;> split <;> rfl
    | some e =>
      cases e with
      | directory =>
        have hbelow : t.LinkFreeBelow (loc ++ [name]) := fun more target => by
          rw [List.append_assoc]
          exact hl _ target
        obtain ⟨result, hd, hd'⟩ := ih (h.append [name]) hbelow hdots
        refine ⟨result.map (name :: ·), hd.trans ?_, hd'.trans ?_⟩ <;> cases result <;> simp [Except.map]
      | file content =>
        refine ⟨if names.isEmpty then .ok [name] else .error .notADirectory, ?_, ?_⟩ <;> dsimp only <;> split <;> rfl
      | locked =>
        refine ⟨if names.isEmpty then .ok [name] else .error .notADirectory, ?_, ?_⟩ <;> dsimp only <;> split <;> rfl
      | closed =>
        refine ⟨if names.isEmpty then .ok [name] else .error .denied, ?_, ?_⟩ <;> dsimp only <;> split <;> rfl
      | link target => exact absurd hget (hl _ target)

theorem directoriesBelow_eq (h : SameBelow t loc t' loc') : t.directoriesBelow loc = t'.directoriesBelow loc' := by
  rw [FileTree.directoriesBelow_eq, FileTree.directoriesBelow_eq, h.below]

theorem filesIn_eq (h : SameBelow t loc t' loc') (hl : t.LinkFreeBelow loc) :
    t.filesIn loc = t'.filesIn loc' := by
  rw [hl.filesIn_eq, (h.linkFreeBelow hl).filesIn_eq, h.below]

end SameBelow

/-! ### Two directories -/

/-- Two directories that hold identical trees without links, and the paths that lead to them. -/
structure HoldsSame (t : FileTree) (root : Path) (loc : Location) (t' : FileTree) (root' : Path)
    (loc' : Location) : Prop where
  wellFormed : t.WellFormed
  wellFormed' : t'.WellFormed
  follow : t.follow root = .ok loc
  follow' : t'.follow root' = .ok loc'
  directory : t.get? loc = some .directory
  linkFree : t.LinkFreeBelow loc
  same : SameBelow t loc t' loc'

namespace HoldsSame

theorem symm (h : HoldsSame t root loc t' root' loc') : HoldsSame t' root' loc' t root loc where
  wellFormed := h.wellFormed'
  wellFormed' := h.wellFormed
  follow := h.follow'
  follow' := h.follow
  directory := h.same.root ▸ h.directory
  linkFree := h.same.linkFreeBelow h.linkFree
  same := h.same.symm

theorem below (h : HoldsSame t root loc t' root' loc') (hdir : t.get? (loc ++ names) = some .directory) :
    HoldsSame t (root.below names) (loc ++ names) t' (root'.below names) (loc' ++ names) where
  wellFormed := h.wellFormed
  wellFormed' := h.wellFormed'
  follow := h.wellFormed.follow_below h.follow hdir
  follow' := h.wellFormed'.follow_below h.follow' (h.same.get?_append names ▸ hdir)
  directory := hdir
  linkFree := fun more target => by
    rw [List.append_assoc]
    exact h.linkFree _ target
  same := h.same.append names

theorem namesBelow_eq (h : HoldsSame t root loc t' root' loc') : t.namesBelow loc = t'.namesBelow loc' := by
  rw [namesBelow, namesBelow, h.same.directoriesBelow_eq]
  refine List.flatMap_congr fun dir _ => ?_
  have hbelow : t.LinkFreeBelow (loc ++ dir) := fun names target => by
    rw [List.append_assoc]
    exact h.linkFree _ target
  rw [(h.same.append dir).filesIn_eq hbelow]

theorem mem_filesBelow (h : HoldsSame t root loc t' root' loc') (hp : root.below names ∈ t.filesBelow root) :
    root'.below names ∈ t'.filesBelow root' := by
  rw [filesBelow_eq_map h.follow h.directory] at hp
  rw [filesBelow_eq_map h.follow' h.symm.directory, ← h.namesBelow_eq]
  obtain ⟨names', hmem, heq⟩ := List.mem_map.1 hp
  obtain rfl := Path.below_inj.1 heq
  exact List.mem_map_of_mem hmem

theorem stat_eq (h : HoldsSame t root loc t' root' loc') (hdots : ['.', '.'] ∉ names) :
    t.stat (root.below names) = t'.stat (root'.below names) := by
  obtain ⟨onLink, hon⟩ := followWithin_below h.follow h.directory false names
  obtain ⟨onLink', hon'⟩ := followWithin_below h.follow' h.symm.directory false names
  obtain ⟨result, hd, hd'⟩ := h.same.descend_eq h.linkFree hdots
  have hf : t.follow (root.below names) = result.map (loc ++ ·) := hon.trans hd
  have hf' : t'.follow (root'.below names) = result.map (loc' ++ ·) := hon'.trans hd'
  rw [stat, stat, hf, hf']
  cases result with
  | error fault => rfl
  | ok there =>
    simp only [Except.map, bind, Except.bind]
    rw [h.same.get?_append there]

theorem read_eq (h : HoldsSame t root loc t' root' loc') (hdots : ['.', '.'] ∉ names) :
    t.read (root.below names) = t'.read (root'.below names) := by
  rw [read, read, h.stat_eq hdots]

theorem isDirectory_eq (h : HoldsSame t root loc t' root' loc') (hdots : ['.', '.'] ∉ names) :
    t.isDirectory (root.below names) = t'.isDirectory (root'.below names) := by
  rw [isDirectory, isDirectory, h.stat_eq hdots]

theorem probe_eq (h : HoldsSame t root loc t' root' loc') (hdots : ['.', '.'] ∉ names) :
    t.probe (root.below names) = t'.probe (root'.below names) := by
  rw [probe, probe, h.stat_eq hdots]

end HoldsSame

end GenScope.FileTree
