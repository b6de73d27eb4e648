import GenScope.Path
import GenScope.Text.Utf8
import GenScope.Text.Quoted

/-!
# File trees

A file tree is a finite map from locations to entries. The entries stand in the order in which a scan
meets them, which is any order: a system that lists the names of a directory promises none. Every path
starts at the top or at the working directory. `get?_insert` says what a look-up finds after an entry
is put in place.
-/

namespace GenScope

/-- A place in a file tree: the names that lead to it from the top, free of links and dots. -/
abbrev Location := List Text

inductive Entry
  | file (content : Bytes)
  /-- A file that may be neither read nor written. -/
  | locked
  | directory
  /-- A directory that may be neither listed nor entered. -/
  | closed
  /-- A symbolic link to a path, which may lead nowhere. -/
  | link (target : Text)
deriving DecidableEq, Repr

/-- The entry is a file, whether or not it can be opened. -/
def Entry.isFile : Entry → Bool
  | .file _ | .locked => true
  | .directory | .closed | .link _ => false

/-- The entry is a directory, whether or not it can be entered. -/
def Entry.isDirectory : Entry → Bool
  | .directory | .closed => true
  | .file _ | .locked | .link _ => false

theorem Entry.isDirectory_iff {e : Entry} : e.isDirectory = true ↔ e = .directory ∨ e = .closed := by
  cases e <;> simp [isDirectory]

/-- No two entries lie at the same location. -/
abbrev Distinct (entries : List (Location × Entry)) : Prop := (entries.map Prod.fst).Nodup

structure FileTree where
  entries : List (Location × Entry)
  distinct : Distinct entries
  /-- Where relative paths start. -/
  workingDir : Location
  /-- The user's directory. -/
  home : Location
  /-- The directories of the users that are known by name. -/
  homes : List (Text × Location)

namespace FileTree

/-- Replaces the entry at a location, or puts a new one before those that come later in the order of
locations. -/
def place (loc : Location) (e : Entry) (es : List (Location × Entry)) : List (Location × Entry) :=
  if loc ∈ es.map Prod.fst then es.map fun x => if x.1 = loc then (loc, e) else x
  else (es.takeWhile fun x => x.1 < loc) ++ (loc, e) :: es.dropWhile fun x => x.1 < loc

theorem mem_place {loc : Location} {e : Entry} {es : List (Location × Entry)}
    {x : Location × Entry} (h : x ∈ place loc e es) : x = (loc, e) ∨ x ∈ es := by
  unfold place at h
  split at h
  · obtain ⟨y, hy, rfl⟩ := List.mem_map.1 h
    split
    · exact .inl rfl
    · exact .inr hy
  · rw [List.mem_append, List.mem_cons] at h
    rcases h with h | h | h
    · exact .inr (List.takeWhile_subset _ h)
    · exact .inl h
    · exact .inr (List.dropWhile_subset _ h)

theorem map_fst_replace (loc : Location) (e : Entry) (es : List (Location × Entry)) :
    (es.map fun x => if x.1 = loc then (loc, e) else x).map Prod.fst = es.map Prod.fst := by
  rw [List.map_map]
  refine List.map_congr_left fun x _ => ?_
  by_cases hx : x.1 = loc <;> simp [hx]

theorem distinct_place (loc : Location) (e : Entry) {es : List (Location × Entry)}
    (h : Distinct es) : Distinct (place loc e es) := by
  unfold place
  split
  · rwa [Distinct, map_fst_replace]
  · rename_i hnew
    have hcut : es.map Prod.fst =
        ((es.takeWhile fun x => x.1 < loc) ++ es.dropWhile fun x => x.1 < loc).map Prod.fst := by
      rw [List.takeWhile_append_dropWhile]
    rw [Distinct, hcut, List.map_append] at h
    rw [hcut, List.map_append] at hnew
    rw [Distinct, List.map_append, List.map_cons, List.perm_middle.nodup_iff]
    exact List.nodup_cons.2 ⟨hnew, h⟩

/-- The entry at a location. The top is a directory. -/
def get? (t : FileTree) (loc : Location) : Option Entry :=
  if loc = [] then some .directory
  else (t.entries.find? fun x => x.1 = loc).map Prod.snd

def insert (t : FileTree) (loc : Location) (e : Entry) : FileTree :=
  { t with entries := place loc e t.entries, distinct := distinct_place loc e t.distinct }

/-- The tree without a location and everything below it. -/
def erase (t : FileTree) (loc : Location) : FileTree :=
  { t with
    entries := t.entries.filter fun x => !loc.isPrefixOf x.1
    distinct := (List.filter_sublist.map Prod.fst).nodup t.distinct }

/-- The tree with a directory and the directories that lead to it. -/
def ensureDirectory (t : FileTree) (loc : Location) : FileTree :=
  (List.range (loc.length + 1)).foldl (fun t n =>
    if (t.get? (loc.take n)).isSome then t else t.insert (loc.take n) .directory) t

def empty : FileTree := ⟨[], List.nodup_nil, [], [], []⟩

theorem find?_place (loc here : Location) (e : Entry) (es : List (Location × Entry)) :
    ((place loc e es).find? fun x => x.1 = here) =
      if here = loc then some (loc, e) else es.find? fun x => x.1 = here := by
  unfold place
  split
  · rename_i hmem
    rw [List.find?_map]
    have hkeys : ((fun x : Location × Entry => decide (x.1 = here)) ∘ fun x => if x.1 = loc then (loc, e) else x) =
        fun x => decide (x.1 = here) := by
      funext x
      by_cases hx : x.1 = loc <;> simp [hx]
    rw [hkeys]
    cases hfind : es.find? fun x => x.1 = here with
    | none =>
      have hne : here ≠ loc := by
        rintro rfl
        obtain ⟨x, hx, heq⟩ := List.mem_map.1 hmem
        simpa [heq] using List.find?_eq_none.1 hfind x hx
      simp [hne]
    | some x =>
      obtain rfl : x.1 = here := by simpa using List.find?_some hfind
      by_cases hx : x.1 = loc <;> simp [hx]
  · rename_i hnew
    rw [List.find?_append, List.find?_cons]
    by_cases hh : here = loc
    · subst hh
      have hnone : (es.takeWhile fun x => x.1 < here).find? (fun x => x.1 = here) = none := by
        refine List.find?_eq_none.2 fun x hx => ?_
        have hne : x.1 ≠ here := fun heq => hnew (List.mem_map.2 ⟨x, List.takeWhile_subset _ hx, heq⟩)
        simpa using hne
      simp [hnone]
    · simp only [Ne.symm hh, decide_false, hh, if_false]
      rw [← List.find?_append, List.takeWhile_append_dropWhile]

theorem get?_insert (t : FileTree) {loc : Location} (h : loc ≠ []) (here : Location)
    (e : Entry) :
    (t.insert loc e).get? here = if here = loc then some e else t.get? here := by
  unfold get? insert
  by_cases hh : here = []
  · subst hh; simp [Ne.symm h]
  · simp only [hh, if_false]
    rw [find?_place loc here e]
    by_cases ha : here = loc <;> simp [ha]

end FileTree

end GenScope
