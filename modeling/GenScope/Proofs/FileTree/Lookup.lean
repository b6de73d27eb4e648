import GenScope.FileTree.Resolve
import GenScope.Proofs.Path

/-!
# Looking up in a tree without links

In a well-formed tree every entry lies in a directory that may be entered, under a proper name
(`FileTree.WellFormed`). Without links a path from the top then leads to the location that its names spell,
so that what is found there is what the map of entries holds (`stat_top_iff`, `read_top_iff`).
-/

namespace GenScope

namespace FileTree

/-- Every entry has proper names and lies in a directory. -/
structure WellFormed (t : FileTree) : Prop where
  top : ∀ x ∈ t.entries, x.1 ≠ []
  names : ∀ {loc e}, t.get? loc = some e → ∀ name ∈ loc, IsEntryName name
  short : ∀ {loc e}, t.get? loc = some e → ∀ name ∈ loc, isShortName name = true
  parent : ∀ {loc name e}, t.get? (loc ++ [name]) = some e → t.get? loc = some .directory

def LinkFree (t : FileTree) : Prop := ∀ loc target, t.get? loc ≠ some (.link target)

/-- There is no link below the location. -/
def LinkFreeBelow (t : FileTree) (root : Location) : Prop :=
  ∀ names target, t.get? (root ++ names) ≠ some (.link target)

variable {t : FileTree} {loc here : Location} {names : List Text} {name : Text} {e : Entry}
  {create : Bool} {onLink : Location → List Text → Except Fault Location}

@[simp] theorem get?_nil (t : FileTree) : t.get? [] = some .directory := by simp [get?]

/-! ### Entries -/

theorem mem_of_get? (hne : loc ≠ []) (hget : t.get? loc = some e) : (loc, e) ∈ t.entries := by
  rw [get?, if_neg hne] at hget
  obtain ⟨x, hfind, rfl⟩ := Option.map_eq_some_iff.1 hget
  obtain rfl : x.1 = loc := by simpa using List.find?_some hfind
  exact List.mem_of_find?_eq_some hfind

theorem get?_eq_none (hne : loc ≠ []) (h : ∀ x ∈ t.entries, x.1 ≠ loc) : t.get? loc = none := by
  cases hget : t.get? loc with
  | none => rfl
  | some e => exact absurd rfl (h _ (mem_of_get? hne hget))

theorem mem_entries_iff_of_ne (hne : loc ≠ []) : (loc, e) ∈ t.entries ↔ t.get? loc = some e := by
  constructor
  · intro hmem
    rw [get?, if_neg hne]
    cases hfind : t.entries.find? fun x => x.1 = loc with
    | none => simpa using List.find?_eq_none.1 hfind _ hmem
    | some x =>
      have hx : x.1 = loc := by simpa using List.find?_some hfind
      rw [List.inj_on_of_nodup_map t.distinct (List.mem_of_find?_eq_some hfind) hmem hx]
      rfl
  · exact mem_of_get? hne

theorem WellFormed.mem_entries_iff (h : t.WellFormed) :
    (loc, e) ∈ t.entries ↔ loc ≠ [] ∧ t.get? loc = some e := by
  constructor
  · intro hmem
    have hne := h.top _ hmem
    exact ⟨hne, (mem_entries_iff_of_ne hne).1 hmem⟩
  · exact fun h => mem_of_get? h.1 h.2

theorem WellFormed.dots_not_mem (h : t.WellFormed) (hget : t.get? loc = some e) : ['.', '.'] ∉ loc :=
  fun hm => (h.names hget _ hm).dots rfl

theorem WellFormed.dots_not_mem_append (h : t.WellFormed) (hget : t.get? loc = some e)
    (hnames : ∀ name ∈ names, IsEntryName name) : ['.', '.'] ∉ loc ++ names := by
  rw [List.mem_append, not_or]
  exact ⟨h.dots_not_mem hget, fun hm => (hnames _ hm).dots rfl⟩

theorem WellFormed.of_entries (h : ∀ x ∈ t.entries, x.1 ≠ [] ∧
    (∀ name ∈ x.1, IsEntryName name ∧ isShortName name = true) ∧
    t.get? x.1.dropLast = some .directory) : t.WellFormed where
  top x hx := (h x hx).1
  names {loc e} hget name hname := by
    have hne : loc ≠ [] := List.ne_nil_of_mem hname
    exact ((h _ (mem_of_get? hne hget)).2.1 name hname).1
  short {loc e} hget name hname := by
    have hne : loc ≠ [] := List.ne_nil_of_mem hname
    exact ((h _ (mem_of_get? hne hget)).2.1 name hname).2
  parent hget := by simpa using (h _ (mem_of_get? (by simp) hget)).2.2

theorem LinkFreeBelow.of_entries {root : Location}
    (h : ∀ x ∈ t.entries, root <+: x.1 → ∀ target, x.2 ≠ .link target) : t.LinkFreeBelow root := by
  intro names target hget
  by_cases hne : root ++ names = []
  · simp [hne] at hget
  · exact h _ (mem_of_get? hne hget) (List.prefix_append _ _) target rfl

theorem LinkFree.below (h : t.LinkFree) (root : Location) : t.LinkFreeBelow root := fun _ target => h _ target

theorem LinkFree.of_entries (h : ∀ x ∈ t.entries, ∀ target, x.2 ≠ .link target) : t.LinkFree := by
  have hbelow : t.LinkFreeBelow [] := .of_entries fun x hx _ => h x hx
  exact hbelow

theorem WellFormed.get?_of_append (h : t.WellFormed) (hget : t.get? (loc ++ names) = some e)
    (hne : names ≠ []) : t.get? loc = some .directory := by
  induction names using List.reverseRecOn generalizing e with
  | nil => exact absurd rfl hne
  | append_singleton names name ih =>
    have hdir := h.parent (by rw [List.append_assoc]; exact hget)
    by_cases hnames : names = []
    · simpa [hnames] using hdir
    · exact ih hdir hnames

/-! ### Putting an entry in place -/

theorem WellFormed.insert (h : t.WellFormed) (hdir : t.get? loc = some .directory)
    (hname : IsEntryName name) (hshort : isShortName name = true)
    (hnew : e = .directory ∨ t.get? (loc ++ [name]) ≠ some .directory) :
    (t.insert (loc ++ [name]) e).WellFormed where
  top x hx := by
    rcases mem_place hx with rfl | hx
    · simp
    · exact h.top x hx
  names {here e'} hget := by
    rw [get?_insert t (by simp)] at hget
    split at hget
    · rename_i hhere
      rw [hhere]
      intro n hn
      rcases List.mem_append.1 hn with hn | hn
      · exact h.names hdir n hn
      · rw [List.mem_singleton.1 hn]; exact hname
    · exact h.names hget
  short {here e'} hget := by
    rw [get?_insert t (by simp)] at hget
    split at hget
    · rename_i hhere
      rw [hhere]
      intro n hn
      rcases List.mem_append.1 hn with hn | hn
      · exact h.short hdir n hn
      · rw [List.mem_singleton.1 hn]; exact hshort
    · exact h.short hget
  parent {here n e'} hget := by
    rw [get?_insert t (by simp)] at hget ⊢
    split at hget
    · rename_i hhere
      obtain ⟨rfl, -⟩ := List.append_inj' hhere rfl
      rw [if_neg (by simp), hdir]
    · have hparent := h.parent hget
      split
      · rename_i hhere
        rcases hnew with rfl | hnew
        · rfl
        · exact absurd (hhere ▸ hparent) hnew
      · exact hparent

theorem LinkFree.insert (h : t.LinkFree) (he : ∀ target, e ≠ .link target) :
    (t.insert (loc ++ [name]) e).LinkFree := by
  intro here target hget
  rw [get?_insert t (by simp)] at hget
  split at hget
  · exact he target (Option.some.inj hget)
  · exact h here target hget

/-! ### Going down -/

theorem WellFormed.descend_append (h : t.WellFormed) (hdir : t.get? (here ++ loc) = some .directory)
    (names : List Text) :
    descend t create onLink here (loc ++ names) = descend t create onLink (here ++ loc) names := by
  induction loc generalizing here with
  | nil => simp
  | cons name loc ih =>
    have hname : name ≠ ['.', '.'] := (h.names hdir name (by simp)).dots
    have hshort : isShortName name = true := h.short hdir name (by simp)
    have hfirst : t.get? (here ++ [name]) = some .directory := by
      cases loc with
      | nil => exact hdir
      | cons next loc =>
        have hall : t.get? ((here ++ [name]) ++ next :: loc) = some .directory := by simpa using hdir
        exact h.get?_of_append hall (by simp)
    rw [List.cons_append, descend, if_neg hname, if_neg (by simp [hshort]), hfirst]
    have hrest : t.get? ((here ++ [name]) ++ loc) = some .directory := by simpa using hdir
    simpa using ih hrest

/-- Without links below, and without two dots among the names, going down ends where the names
lead. -/
theorem LinkFreeBelow.eq_of_descend (h : t.LinkFreeBelow here) (hdots : ['.', '.'] ∉ names)
    (hd : descend t create onLink here names = .ok loc) : loc = here ++ names := by
  induction names generalizing here with
  | nil => simpa [descend, eq_comm] using hd
  | cons name names ih =>
    obtain ⟨hname, hdots⟩ := not_or.1 (mt List.mem_cons.2 hdots)
    rw [descend, if_neg (Ne.symm hname)] at hd
    split at hd
    · cases hd
    cases hget : t.get? (here ++ [name]) with
    | none =>
      rw [hget] at hd
      cases names with
      | nil => cases create <;> simp_all
      | cons next names => simp at hd
    | some e =>
      rw [hget] at hd
      cases e with
      | directory =>
        have hbelow : t.LinkFreeBelow (here ++ [name]) := by
          intro names target
          rw [List.append_assoc]
          exact h _ target
        simpa using ih hbelow hdots hd
      | file content => cases names <;> simp_all
      | locked => cases names <;> simp_all
      | closed => cases names <;> simp_all
      | link target => exact absurd hget (h _ target)

theorem LinkFree.eq_of_descend (h : t.LinkFree) (hdots : ['.', '.'] ∉ names)
    (hd : descend t create onLink here names = .ok loc) : loc = here ++ names :=
  (h.below here).eq_of_descend hdots hd

/-! ### Paths from the top -/

theorem followWithin_eq (t : FileTree) (create : Bool) (links : Nat) :
    ∃ onLink, followWithin t create links = descend t create onLink := by
  cases links with
  | zero => exact ⟨_, rfl⟩
  | succ links => exact ⟨_, rfl⟩

theorem follow_of_stat {p : Path} (hs : t.stat p = .ok e) : ∃ loc, t.follow p = .ok loc ∧ t.get? loc = some e := by
  cases hf : t.follow p with
  | error fault => simp [stat, hf, bind, Except.bind] at hs
  | ok loc =>
    cases hget : t.get? loc with
    | none => simp [stat, hf, hget, bind, Except.bind] at hs
    | some e => exact ⟨loc, rfl, by simp_all [stat, bind, Except.bind]⟩

theorem stat_iff_of_follow {p : Path} (hf : t.follow p = .ok loc) : t.stat p = .ok e ↔ t.get? loc = some e := by
  cases hget : t.get? loc <;> simp [stat, hf, hget, bind, Except.bind]

theorem get?_of_stat {p : Path} (hs : t.stat p = .ok e) (hf : t.follow p = .ok loc) : t.get? loc = some e :=
  (stat_iff_of_follow hf).1 hs

theorem isDirectory_of_follow {p : Path} (hf : t.follow p = .ok loc) (hdir : t.get? loc = some .directory) :
    t.isDirectory p = true := by
  simp [isDirectory, stat, hf, hdir, bind, Except.bind, Entry.isDirectory]

theorem WellFormed.descend_append_below (h : t.WellFormed) {below : List Text}
    (hlink : ∀ here names, onLink here names = .ok loc → onLink here (names ++ below) = .ok (loc ++ below))
    (hdir : t.get? (loc ++ below) = some .directory) (hd : descend t false onLink here names = .ok loc) :
    descend t false onLink here (names ++ below) = .ok (loc ++ below) := by
  induction names generalizing here with
  | nil =>
    obtain rfl : here = loc := by simpa [descend] using hd
    simpa [descend] using h.descend_append hdir []
  | cons name names ih =>
    rw [List.cons_append]
    rw [descend] at hd ⊢
    split at hd
    · rename_i hname
      rw [if_pos hname]
      exact ih hd
    · rename_i hname
      rw [if_neg hname]
      split at hd
      · cases hd
      rename_i hshort
      rw [if_neg hshort]
      have hdir' : t.get? loc = some .directory := by
        by_cases hbelow : below = []
        · simpa [hbelow] using hdir
        · exact h.get?_of_append hdir hbelow
      cases hget : t.get? (here ++ [name]) with
      | none => simp [hget] at hd
      | some e =>
        rw [hget] at hd
        cases e with
        | directory => exact ih hd
        | file content => cases names <;> simp_all
        | locked => cases names <;> simp_all
        | closed => cases names <;> simp_all
        | link target =>
          dsimp only at hd ⊢
          rw [← List.append_assoc]
          split at hd <;> exact hlink _ _ hd

theorem WellFormed.follow_below (h : t.WellFormed) {p : Path} (hf : t.follow p = .ok loc)
    (hdir : t.get? (loc ++ names) = some .directory) : t.follow (p.below names) = .ok (loc ++ names) := by
  have hwithin : ∀ links here front, followWithin t false links here front = .ok loc →
      followWithin t false links here (front ++ names) = .ok (loc ++ names) := by
    intro links
    induction links with
    | zero => exact fun here front => h.descend_append_below (by simp) hdir
    | succ links ih => exact fun here front => h.descend_append_below ih hdir
  exact hwithin _ _ _ hf

theorem WellFormed.follow_top (h : t.WellFormed) (hl : t.LinkFree) (hget : t.get? loc = some e) :
    t.follow ⟨.top, loc⟩ = .ok loc := by
  obtain ⟨onLink, hf⟩ := followWithin_eq t false maxLinks
  show followWithin t false maxLinks [] loc = .ok loc
  rw [hf]
  rcases List.eq_nil_or_concat loc with rfl | ⟨dir, name, rfl⟩
  · rfl
  · rw [List.concat_eq_append] at hget ⊢
    have hdir : t.get? ([] ++ dir) = some .directory := h.parent hget
    have hname : name ≠ ['.', '.'] := (h.names hget name (by simp)).dots
    have hshort : isShortName name = true := h.short hget name (by simp)
    rw [h.descend_append hdir, List.nil_append, descend, if_neg hname, if_neg (by simp [hshort]), hget]
    cases e with
    | directory => simp [descend]
    | file content => simp
    | locked => simp
    | closed => simp
    | link target => exact absurd hget (hl _ target)

theorem LinkFree.eq_of_follow_top (h : t.LinkFree) (hdots : ['.', '.'] ∉ names)
    (hf : t.follow ⟨.top, names⟩ = .ok loc) : loc = names := by
  obtain ⟨onLink, heq⟩ := followWithin_eq t false maxLinks
  have hd : descend t false onLink [] names = .ok loc := by rw [← heq]; exact hf
  simpa using h.eq_of_descend hdots hd

theorem WellFormed.landing_top (h : t.WellFormed) (hl : t.LinkFree)
    (hdir : t.get? loc = some .directory) (hname : IsEntryName name) (hshort : isShortName name = true) :
    t.landing ⟨.top, loc ++ [name]⟩ = .ok (loc ++ [name]) := by
  obtain ⟨onLink, hf⟩ := followWithin_eq t true maxLinks
  have hdir' : t.get? ([] ++ loc) = some .directory := hdir
  show followWithin t true maxLinks [] (loc ++ [name]) = .ok (loc ++ [name])
  rw [hf, h.descend_append hdir', List.nil_append, descend, if_neg hname.dots, if_neg (by simp [hshort])]
  cases hget : t.get? (loc ++ [name]) with
  | none => simp
  | some e =>
    cases e with
    | directory => simp [descend]
    | file content => simp
    | locked => simp
    | closed => simp
    | link target => exact absurd hget (hl _ target)

theorem WellFormed.stat_top_iff (h : t.WellFormed) (hl : t.LinkFree) (hdots : ['.', '.'] ∉ loc) :
    t.stat ⟨.top, loc⟩ = .ok e ↔ t.get? loc = some e := by
  constructor
  · intro hs
    cases hf : t.follow ⟨.top, loc⟩ with
    | error fault => simp [stat, hf, bind, Except.bind] at hs
    | ok there =>
      obtain rfl := hl.eq_of_follow_top hdots hf
      cases hget : t.get? there <;> simp_all [stat, bind, Except.bind]
  · intro hget
    simp [stat, h.follow_top hl hget, hget, bind, Except.bind]

theorem WellFormed.pathExists_top_iff (h : t.WellFormed) (hl : t.LinkFree) (hdots : ['.', '.'] ∉ loc) :
    t.pathExists ⟨.top, loc⟩ = true ↔ ∃ e, t.get? loc = some e := by
  simp only [← h.stat_top_iff hl hdots, pathExists]
  cases t.stat ⟨.top, loc⟩ <;> simp [Except.isOk, Except.toBool]

theorem WellFormed.read_top_iff (h : t.WellFormed) (hl : t.LinkFree) (hdots : ['.', '.'] ∉ loc)
    {content : Bytes} : t.read ⟨.top, loc⟩ = .ok content ↔ t.get? loc = some (.file content) := by
  rw [← h.stat_top_iff hl hdots]
  cases hs : t.stat ⟨.top, loc⟩ with
  | error fault => simp [read, hs, bind, Except.bind]
  | ok e => cases e <;> simp [read, hs, bind, Except.bind]

/-! ### Asking about paths -/

/-- Links aside, a path leads nowhere because nothing is there, or because a name is too long or the way
leads through a directory that may not be entered. -/
theorem descend_error {fault : Fault} (hlink : ∀ here names, onLink here names = .error fault →
      fault.meansAbsent = true ∨ fault = .nameTooLong ∨ fault = .denied)
    (hd : descend t create onLink here names = .error fault) :
    fault.meansAbsent = true ∨ fault = .nameTooLong ∨ fault = .denied := by
  induction names generalizing here with
  | nil => cases hd
  | cons name names ih =>
    rw [descend] at hd
    split at hd
    · exact ih hd
    split at hd
    · obtain rfl := Except.error.inj hd
      exact .inr (.inl rfl)
    cases hget : t.get? (here ++ [name]) with
    | none =>
      rw [hget] at hd
      dsimp only at hd
      split at hd <;> cases hd
      exact .inl rfl
    | some e =>
      rw [hget] at hd
      cases e with
      | directory => exact ih hd
      | file content =>
        dsimp only at hd
        split at hd <;> cases hd
        exact .inl rfl
      | locked =>
        dsimp only at hd
        split at hd <;> cases hd
        exact .inl rfl
      | closed =>
        dsimp only at hd
        split at hd <;> cases hd
        exact .inr (.inr rfl)
      | link target =>
        dsimp only at hd
        split at hd <;> exact hlink _ _ hd

theorem meansAbsent_or_of_stat {p : Path} {fault : Fault} (hs : t.stat p = .error fault) :
    fault.meansAbsent = true ∨ fault = .nameTooLong ∨ fault = .denied := by
  have hwithin : ∀ links here names, followWithin t false links here names = .error fault →
      fault.meansAbsent = true ∨ fault = .nameTooLong ∨ fault = .denied := by
    intro links
    induction links with
    | zero =>
      refine fun here names => descend_error fun _ _ hon => ?_
      obtain rfl := Except.error.inj hon
      exact .inl rfl
    | succ links ih => exact fun here names => descend_error ih
  cases hf : t.follow p with
  | error fault' =>
    obtain rfl : fault' = fault := by simpa [stat, hf, bind, Except.bind] using hs
    exact hwithin _ _ _ hf
  | ok loc =>
    cases hget : t.get? loc with
    | none =>
      obtain rfl : Fault.notFound = fault := by simpa [stat, hf, hget, bind, Except.bind] using hs
      exact .inl rfl
    | some e => simp [stat, hf, hget, bind, Except.bind] at hs

theorem ask_eq_ok_iff {p : Path} : t.ask p = .ok e ↔ isShortPath p = true ∧ t.stat p = .ok e := by
  unfold ask
  split <;> simp_all

theorem found?_eq (t : FileTree) (p : Path) : t.found? p = if '\x00' ∈ p.toText then .ok none else
    match t.ask p with
    | .ok e => .ok (some e)
    | .error fault => if fault.meansAbsent then .ok none else .error fault := by
  unfold found? ask probe
  by_cases hnul : '\x00' ∈ p.toText
  · simp [hnul]
  · by_cases hshort : isShortPath p = true
    · cases t.stat p <;> simp [hnul, hshort]
    · simp [hnul, hshort, Fault.meansAbsent]

theorem found?_eq_some_iff {p : Path} :
    t.found? p = .ok (some e) ↔ '\x00' ∉ p.toText ∧ isShortPath p = true ∧ t.stat p = .ok e := by
  rw [← ask_eq_ok_iff, found?_eq]
  by_cases hnul : '\x00' ∈ p.toText
  · simp [hnul]
  · rcases hask : t.ask p with fault | e'
    · cases habsent : fault.meansAbsent <;> simp [hnul, habsent]
    · simp [hnul]

end FileTree

end GenScope
