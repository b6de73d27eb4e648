import GenScope.FileTree.Walk
import GenScope.Proofs.FileTree.Lookup

/-!
# Walks

A walk from a directory visits every directory below it and lists, once each, what passes for a file
there, and nothing else (`mem_directoriesBelow`, `mem_filesBelow_iff`, `nodup_filesBelow`), whatever the
order in which it meets them. In a tree without links these are the files (`mem_filesBelow`).
-/

namespace GenScope

namespace FileTree

variable {t : FileTree} {loc : Location} {names : List Text} {name : Text} {x : Location × Entry}

/-! ### One directory -/

theorem directoryBelow_eq_some_iff : (if x.2 = .directory ∧ loc.isPrefixOf x.1 ∧ x.1 ≠ loc then
      some (x.1.drop loc.length) else none) = some names ↔
    x = (loc ++ names, .directory) ∧ names ≠ [] := by
  obtain ⟨there, e⟩ := x
  constructor
  · intro hif
    split at hif
    · rename_i hcond
      obtain ⟨rfl, hp, hne⟩ := hcond
      obtain ⟨u, rfl⟩ := List.isPrefixOf_iff_prefix.1 hp
      obtain rfl : u = names := by simpa using hif
      exact ⟨rfl, by simpa using hne⟩
    · cases hif
  · rintro ⟨heq, hnames⟩
    cases heq
    simp [hnames, List.isPrefixOf_iff_prefix]

theorem fileIn_eq_some_iff : (if x.1.length = loc.length + 1 ∧ loc.isPrefixOf x.1 ∧ t.listsAsFile x then
      x.1.getLast? else none) = some name ↔ x.1 = loc ++ [name] ∧ t.listsAsFile x = true := by
  obtain ⟨there, e⟩ := x
  constructor
  · intro hif
    split at hif
    · rename_i hcond
      obtain ⟨hlen, hp, hfile⟩ := hcond
      obtain ⟨u, rfl⟩ := List.isPrefixOf_iff_prefix.1 hp
      have hu : u.length = 1 := by simpa using hlen
      obtain ⟨last, rfl⟩ := List.length_eq_one_iff.1 hu
      obtain rfl : last = name := by simpa using hif
      exact ⟨rfl, hfile⟩
    · cases hif
  · rintro ⟨heq, hfile⟩
    cases heq
    rw [if_pos ⟨by simp, List.isPrefixOf_iff_prefix.2 (by simp), hfile⟩]
    simp

theorem mem_directoriesBelow (hdir : t.get? loc = some .directory) :
    names ∈ t.directoriesBelow loc ↔ t.get? (loc ++ names) = some .directory := by
  simp only [directoriesBelow, List.mem_cons, List.mem_filterMap, directoryBelow_eq_some_iff]
  constructor
  · rintro (rfl | ⟨_, hx, rfl, hnames⟩)
    · simpa using hdir
    · exact (mem_entries_iff_of_ne (by simp [hnames])).1 hx
  · intro hget
    by_cases hnames : names = []
    · exact .inl hnames
    · exact .inr ⟨_, mem_of_get? (by simp [hnames]) hget, rfl, hnames⟩

theorem LinkFree.listsAsFile_iff (hl : t.LinkFree) (h : t.WellFormed) {x : Location × Entry}
    (hx : x ∈ t.entries) : t.listsAsFile x = true ↔ x.2.isFile = true := by
  obtain ⟨there, e⟩ := x
  have hget := (h.mem_entries_iff.1 hx).2
  cases e with
  | file content => exact Iff.rfl
  | locked => exact Iff.rfl
  | directory => exact Iff.rfl
  | closed => exact Iff.rfl
  | link target => exact absurd hget (hl _ target)

theorem mem_filesIn_iff :
    name ∈ t.filesIn loc ↔ ∃ e, t.get? (loc ++ [name]) = some e ∧ t.listsAsFile (loc ++ [name], e) = true := by
  simp only [filesIn, List.mem_filterMap, fileIn_eq_some_iff]
  constructor
  · rintro ⟨⟨_, e⟩, hx, rfl, hfile⟩
    exact ⟨e, (mem_entries_iff_of_ne (by simp)).1 hx, hfile⟩
  · rintro ⟨e, hget, hfile⟩
    exact ⟨_, mem_of_get? (by simp) hget, rfl, hfile⟩

/-! ### All directories -/

theorem walk_eq {root : Path} (hf : t.follow root = .ok loc) (hdir : t.get? loc = some .directory) :
    t.walk root = (t.directoriesBelow loc).map fun names => ⟨root.below names, t.filesIn (loc ++ names)⟩ := by
  rw [walk, hf]
  exact if_pos hdir

theorem walk_eq_nil {root : Path} (h : ¬ ∃ loc, t.follow root = .ok loc ∧ t.get? loc = some .directory) :
    t.walk root = [] := by
  unfold walk
  split
  · rfl
  · rename_i loc hf
    exact if_neg fun hdir => h ⟨loc, hf, hdir⟩

theorem walk_of_closed {root : Path} (h : t.stat root = .ok .closed) : t.walk root = [] := by
  refine walk_eq_nil ?_
  rintro ⟨loc, hf, hdir⟩
  simp [get?_of_stat h hf] at hdir

/-- What a walk from a location lists, by the names below it. -/
def namesBelow (t : FileTree) (loc : Location) : List (List Text) :=
  (t.directoriesBelow loc).flatMap fun dir => (t.filesIn (loc ++ dir)).map fun name => dir ++ [name]

theorem ne_nil_of_mem_namesBelow (h : names ∈ t.namesBelow loc) : names ≠ [] := by
  obtain ⟨dir, -, hmem⟩ := List.mem_flatMap.1 h
  obtain ⟨name, -, rfl⟩ := List.mem_map.1 hmem
  simp

theorem filesBelow_eq_map {root : Path} (hf : t.follow root = .ok loc) (hdir : t.get? loc = some .directory) :
    t.filesBelow root = (t.namesBelow loc).map root.below := by
  rw [filesBelow, walk_eq hf hdir, namesBelow, List.flatMap_map, List.map_flatMap]
  refine List.flatMap_congr fun dir _ => ?_
  simp [Visit.paths, Path.child, Path.below]

theorem WellFormed.namesBelow_eq_nil (h : t.WellFormed) (hdir : t.get? loc ≠ some .directory) :
    t.namesBelow loc = [] := by
  refine List.flatMap_eq_nil_iff.2 fun dir _ => List.map_eq_nil_iff.2 ?_
  refine List.eq_nil_iff_forall_not_mem.2 fun name hname => ?_
  obtain ⟨e, hget, -⟩ := mem_filesIn_iff.1 hname
  rw [List.append_assoc] at hget
  exact hdir (h.get?_of_append hget (by simp))

theorem WellFormed.filesBelow_eq (h : t.WellFormed) {root : Path} (hf : t.follow root = .ok loc) :
    t.filesBelow root = (t.namesBelow loc).map root.below := by
  by_cases hdir : t.get? loc = some .directory
  · exact filesBelow_eq_map hf hdir
  · rw [h.namesBelow_eq_nil hdir, filesBelow, walk_eq_nil]
    · rfl
    · rintro ⟨loc', hf', hdir'⟩
      obtain rfl := Except.ok.inj (hf.symm.trans hf')
      exact hdir hdir'

/-- What a walk lists lies below the root, and nothing that is listed lies elsewhere. -/
theorem WellFormed.mem_filesBelow_iff (h : t.WellFormed) {root : Path} (hf : t.follow root = .ok loc)
    (hdir : t.get? loc = some .directory) {p : Path} :
    p ∈ t.filesBelow root ↔ ∃ names e, p = root.below names ∧ t.get? (loc ++ names) = some e ∧
      t.listsAsFile (loc ++ names, e) = true := by
  rw [filesBelow, walk_eq hf hdir, List.mem_flatMap]
  constructor
  · rintro ⟨v, hv, hp⟩
    obtain ⟨dir, -, rfl⟩ := List.mem_map.1 hv
    obtain ⟨name, hname, rfl⟩ := List.mem_map.1 hp
    obtain ⟨e, hget, hfile⟩ := mem_filesIn_iff.1 hname
    rw [List.append_assoc] at hget hfile
    exact ⟨dir ++ [name], e, by simp [Path.child, Path.below], hget, hfile⟩
  · rintro ⟨names, e, rfl, hget, hfile⟩
    rcases List.eq_nil_or_concat names with rfl | ⟨dir, name, rfl⟩
    · rw [List.append_nil, hdir] at hget
      cases hget
      cases hfile
    · rw [List.concat_eq_append, ← List.append_assoc] at hget hfile
      refine ⟨_, List.mem_map.2 ⟨dir, (mem_directoriesBelow hdir).2 (h.parent hget), rfl⟩, ?_⟩
      exact List.mem_map.2 ⟨name, mem_filesIn_iff.2 ⟨e, hget, hfile⟩, by simp [Path.child, Path.below]⟩

theorem follow_of_mem_filesBelow {root p : Path} (hp : p ∈ t.filesBelow root) :
    ∃ loc, t.follow root = .ok loc ∧ t.get? loc = some .directory := by
  cases hf : t.follow root with
  | error fault => simp [filesBelow, walk, hf] at hp
  | ok loc =>
    by_cases hdir : t.get? loc = some .directory
    · exact ⟨loc, rfl, hdir⟩
    · simp [filesBelow, walk, hf, hdir] at hp

theorem WellFormed.exists_below_of_mem (h : t.WellFormed) {root p : Path} (hp : p ∈ t.filesBelow root) :
    ∃ names, names ≠ [] ∧ p = root.below names ∧ ∀ name ∈ names, IsEntryName name := by
  obtain ⟨loc, hf, hdir⟩ := follow_of_mem_filesBelow hp
  obtain ⟨names, e, rfl, hget, hfile⟩ := (h.mem_filesBelow_iff hf hdir).1 hp
  refine ⟨names, ?_, rfl, fun name hname => h.names hget name (by simp [hname])⟩
  rintro rfl
  rw [List.append_nil, hdir] at hget
  cases hget
  cases hfile

theorem WellFormed.ne_nil_of_mem_filesBelow (h : t.WellFormed) {root : Path}
    (hp : root.below names ∈ t.filesBelow root) : names ≠ [] := by
  obtain ⟨names', hne, heq, -⟩ := h.exists_below_of_mem hp
  rwa [Path.below_inj.1 heq]

/-- What a walk lists below a directory on its way is what a walk from there lists. -/
theorem WellFormed.mem_filesBelow_below (h : t.WellFormed) {root : Path} {dir : List Text}
    (hne : names ≠ []) (hp : root.below (dir ++ names) ∈ t.filesBelow root) :
    root.below (dir ++ names) ∈ t.filesBelow (root.below dir) := by
  obtain ⟨loc, hf, hloc⟩ := follow_of_mem_filesBelow hp
  obtain ⟨below, e, heq, hget, hfile⟩ := (h.mem_filesBelow_iff hf hloc).1 hp
  obtain rfl : dir ++ names = below := Path.below_inj.1 heq
  rw [← List.append_assoc] at hget hfile
  have hdir := h.get?_of_append hget hne
  exact (h.mem_filesBelow_iff (h.follow_below hf hdir) hdir).2 ⟨names, e, by simp [Path.below], hget, hfile⟩

theorem WellFormed.mem_filesBelow (h : t.WellFormed) (hl : t.LinkFree)
    (hdir : t.get? loc = some .directory) {p : Path} :
    p ∈ t.filesBelow ⟨.top, loc⟩ ↔
      ∃ names e, p = ⟨.top, loc ++ names⟩ ∧ t.get? (loc ++ names) = some e ∧ e.isFile = true := by
  rw [h.mem_filesBelow_iff (h.follow_top hl hdir) hdir]
  refine exists_congr fun names => exists_congr fun e => and_congr_right fun _ => and_congr_right fun hget => ?_
  by_cases hnames : loc ++ names = []
  · simp only [hnames, get?_nil, Option.some.injEq] at hget
    subst hget
    exact Iff.rfl
  · exact hl.listsAsFile_iff h (h.mem_entries_iff.2 ⟨hnames, hget⟩)

/-! ### Once each -/

theorem nodup_filterMap_entries {β : Type} {f : Location × Entry → Option β}
    (h : ∀ x y b, f x = some b → f y = some b → x.1 = y.1) : (t.entries.filterMap f).Nodup := by
  refine List.Pairwise.filterMap f (fun x y hxy b hb c hc hbc => ?_) (List.pairwise_map.1 t.distinct)
  exact hxy (h x y b hb (hbc ▸ hc))

theorem nodup_directoriesBelow (t : FileTree) (loc : Location) : (t.directoriesBelow loc).Nodup := by
  refine List.nodup_cons.2 ⟨fun hmem => ?_, nodup_filterMap_entries fun x y names hx hy => ?_⟩
  · obtain ⟨x, -, hx⟩ := List.mem_filterMap.1 hmem
    exact (directoryBelow_eq_some_iff.1 hx).2 rfl
  · rw [(directoryBelow_eq_some_iff.1 hx).1, (directoryBelow_eq_some_iff.1 hy).1]

theorem nodup_filesIn (t : FileTree) (loc : Location) : (t.filesIn loc).Nodup :=
  nodup_filterMap_entries fun x y name hx hy => by
    rw [(fileIn_eq_some_iff.1 hx).1, (fileIn_eq_some_iff.1 hy).1]

theorem nodup_filesBelow (t : FileTree) (root : Path) : (t.filesBelow root).Nodup := by
  unfold filesBelow walk
  split
  · simp
  · rename_i loc _
    split
    · rw [List.flatMap_map, List.nodup_flatMap]
      refine ⟨fun names _ => ?_, ?_⟩
      · refine (t.nodup_filesIn _).map fun a b hab => ?_
        simpa [Path.child, Path.below] using hab
      · refine (t.nodup_directoriesBelow loc).imp fun {a b} hab => ?_
        -- the directory of a path is what is before its last name
        rw [Function.onFun, List.disjoint_left]
        intro p hp hq
        obtain ⟨c, -, rfl⟩ := List.mem_map.1 hp
        obtain ⟨d, -, hd⟩ := List.mem_map.1 hq
        simp only [Path.child, Path.below, Path.mk.injEq, true_and, List.append_assoc] at hd
        exact hab (List.append_inj' (List.append_cancel_left hd) rfl).1.symm
    · simp

end FileTree

end GenScope
