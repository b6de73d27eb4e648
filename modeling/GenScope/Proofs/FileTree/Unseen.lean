import GenScope.Proofs.FileTree.Frame
import GenScope.Proofs.FileTree.Walk

/-!
# Reading apart from what is written

Where a path leads does not depend on what is written, only what is found there does (`stat_eq_ok_iff`).
A path that leads to none of the places that are written to is therefore read as before
(`WrittenAt.stat_iff`), also if it leads nowhere, and a directory that holds none of them lists the same
files (`WrittenAt.filesIn_eq`). A path that goes on below a directory leads where its rest leads from
there (`followWithin_append`), and below anything else it leads nowhere (`WellFormed.followWithin_behind`).
-/

namespace GenScope.FileTree

variable {t u before after : FileTree} {here loc dir : Location} {front names : List Text} {name : Text}
  {p source target : Path} {create : Bool} {content : Bytes} {e : Entry} {places : Location → Prop}

/-! ### Following and landing -/

theorem descend_imp {create' : Bool} {onLink onLink' : Location → List Text → Except Fault Location}
    (hend : t.CanEnd create loc → t.CanEnd create' loc)
    (hon : ∀ here names, onLink here names = .ok loc → onLink' here names = .ok loc)
    (hd : descend t create onLink here names = .ok loc) : descend t create' onLink' here names = .ok loc := by
  induction names generalizing here with
  | nil => exact hd
  | cons name names ih =>
    rw [descend_cons_eq_ok_iff] at hd ⊢
    rcases hd with ⟨hname, hd⟩ | ⟨hname, ⟨hget, hd⟩ | ⟨hcan, hnames, rfl⟩ | ⟨target, hget, hd⟩⟩
    · exact .inl ⟨hname, ih hd⟩
    · exact .inr ⟨hname, .inl ⟨hget, ih hd⟩⟩
    · exact .inr ⟨hname, .inr (.inl ⟨hend hcan, hnames, rfl⟩)⟩
    · exact .inr ⟨hname, .inr (.inr ⟨target, hget, hon _ _ hd⟩)⟩

theorem followWithin_imp {create' : Bool} (hend : t.CanEnd create loc → t.CanEnd create' loc) {links : Nat}
    (hd : followWithin t create links here names = .ok loc) : followWithin t create' links here names = .ok loc := by
  induction links generalizing here names with
  | zero => exact descend_imp hend (fun _ _ hon => by cases hon) hd
  | succ links ih => exact descend_imp hend (fun _ _ hon => ih hon) hd

theorem landing_of_follow (hf : t.follow p = .ok loc) : t.landing p = .ok loc :=
  followWithin_imp (fun hcan => hcan.imp_left fun ⟨hfalse, _⟩ => by cases hfalse) hf

/-- Where something is, a path leads there if it could be created there. -/
theorem follow_iff_landing (hget : t.get? loc = some e) : t.follow p = .ok loc ↔ t.landing p = .ok loc :=
  ⟨landing_of_follow, followWithin_imp fun hcan => hcan.imp_left fun ⟨_, hnone⟩ => by simp [hget] at hnone⟩

theorem stat_eq_ok_iff : t.stat p = .ok e ↔ ∃ loc, t.landing p = .ok loc ∧ t.get? loc = some e := by
  constructor
  · intro hs
    cases hf : t.follow p with
    | error fault => simp [stat, hf, bind, Except.bind] at hs
    | ok loc =>
      cases hget : t.get? loc with
      | none => simp [stat, hf, hget, bind, Except.bind] at hs
      | some e' =>
        obtain rfl : e' = e := by simpa [stat, hf, hget, bind, Except.bind] using hs
        exact ⟨loc, landing_of_follow hf, hget⟩
  · rintro ⟨loc, hland, hget⟩
    simp [stat, (follow_iff_landing hget).2 hland, hget, bind, Except.bind]

theorem read_eq_ok_iff : t.read p = .ok content ↔ t.stat p = .ok (.file content) := by
  cases hs : t.stat p with
  | error fault => simp [read, hs, bind, Except.bind]
  | ok e => cases e <;> simp [read, hs, bind, Except.bind]

theorem probe_of_read (hread : t.read p = .ok content) : t.probe p = .ok (some (.file content)) :=
  probe_eq_some_iff.2 (read_eq_ok_iff.1 hread)

theorem pathExists_iff : t.pathExists p = true ↔ ∃ e, t.stat p = .ok e := by
  cases hs : t.stat p <;> simp [pathExists, hs, Except.isOk, Except.toBool]

theorem isFile_iff : t.isFile p = true ↔ ∃ e, t.stat p = .ok e ∧ e.isFile = true := by
  cases hs : t.stat p <;> simp [isFile, hs]

namespace SameWays

theorem get?_iff (h : SameWays t u) (he : e.isDirectory = true) : u.get? loc = some e ↔ t.get? loc = some e := by
  rcases Entry.isDirectory_iff.1 he with rfl | rfl
  · exact h.directory loc
  · exact h.closed loc

theorem isDirectory_eq (h : SameWays t u) (p : Path) : u.isDirectory p = t.isDirectory p := by
  rw [Bool.eq_iff_iff, isDirectory_iff, isDirectory_iff]
  refine exists_congr fun e => and_congr_left fun he => ?_
  rw [stat_eq_ok_iff, stat_eq_ok_iff]
  exact exists_congr fun loc => and_congr h.landing_iff (h.get?_iff he)

theorem stat_iff (h : SameWays t u) (hp : ∀ loc, t.landing p = .ok loc → u.get? loc = t.get? loc) :
    u.stat p = .ok e ↔ t.stat p = .ok e := by
  rw [stat_eq_ok_iff, stat_eq_ok_iff]
  refine exists_congr fun loc => ?_
  rw [h.landing_iff]
  refine and_congr_right fun hland => ?_
  rw [hp loc hland]

end SameWays

theorem Extends.isDirectory_eq (h : Extends before after) (p : Path) : after.isDirectory p = before.isDirectory p :=
  h.toSameWays.isDirectory_eq p

/-! ### Places that are not seen -/

namespace WrittenAt

theorem stat_iff (h : WrittenAt before places after) (hp : ∀ loc, before.landing p = .ok loc → ¬ places loc) :
    after.stat p = .ok e ↔ before.stat p = .ok e :=
  h.toSameWays.stat_iff fun loc hland => h.outside (hp loc hland)

theorem read_iff (h : WrittenAt before places after) (hp : ∀ loc, before.landing p = .ok loc → ¬ places loc) :
    after.read p = .ok content ↔ before.read p = .ok content := by
  rw [read_eq_ok_iff, read_eq_ok_iff, h.stat_iff hp]

theorem pathExists_iff (h : WrittenAt before places after)
    (hp : ∀ loc, before.landing p = .ok loc → ¬ places loc) :
    after.pathExists p = true ↔ before.pathExists p = true := by
  rw [FileTree.pathExists_iff, FileTree.pathExists_iff]
  exact exists_congr fun e => h.stat_iff hp

end WrittenAt

/-! ### Lists of files -/

theorem filterMap_eq_filter {α β : Type} (f : α → Option β) (l : List α) :
    l.filterMap f = (l.filter fun x => (f x).isSome).filterMap f := by
  rw [List.filterMap_filter]
  refine List.filterMap_congr fun x _ => ?_
  cases f x <;> rfl

theorem WrittenAt.filesIn_eq (h : WrittenAt before places after) (hdir : ∀ name, ¬ places (dir ++ [name])) :
    after.filesIn dir = before.filesIn dir := by
  have hlists : after.listsAsFile = before.listsAsFile := by
    funext x
    unfold listsAsFile
    cases x.2 with
    | file content => rfl
    | locked => rfl
    | directory => rfl
    | closed => rfl
    | link target => exact congrArg (!·) (h.isDirectory_eq _)
  unfold filesIn
  rw [hlists, filterMap_eq_filter, filterMap_eq_filter _ before.entries]
  congr 1
  refine h.kept _ fun x hx hplace => ?_
  obtain ⟨name, hname⟩ := Option.isSome_iff_exists.1 hx
  rw [(fileIn_eq_some_iff.1 hname).1] at hplace
  exact absurd hplace (hdir name)

/-! ### Below a directory -/

theorem descend_append (on : Bool → Location → List Text → Except Fault Location) (hdir : t.get? loc = some .directory)
    (hon : ∀ here front, on false here front = .ok loc →
      ∃ links, ∀ create names, on create here (front ++ names) = followWithin t create links loc names)
    (hself : ∃ links, ∀ create, followWithin t create links = descend t create (on create))
    (hd : descend t false (on false) here front = .ok loc) :
    ∃ links, ∀ create names, descend t create (on create) here (front ++ names) =
      followWithin t create links loc names := by
  induction front generalizing here with
  | nil =>
    obtain rfl : here = loc := Except.ok.inj hd
    obtain ⟨links, hlinks⟩ := hself
    exact ⟨links, fun create names => by rw [hlinks, List.nil_append]⟩
  | cons name front ih =>
    rw [descend] at hd
    simp only [List.cons_append, descend]
    by_cases hname : name = ['.', '.']
    · simp only [if_pos hname] at hd ⊢
      exact ih hd
    · simp only [if_neg hname] at hd ⊢
      by_cases hshort : isShortName name = true
      swap
      · simp [hshort] at hd
      simp only [hshort, Bool.not_true, Bool.false_eq_true, if_false] at hd ⊢
      cases hget : t.get? (here ++ [name]) with
      | none => simp [hget] at hd
      | some e =>
        rw [hget] at hd
        cases e with
        | directory => exact ih hd
        -- nothing leads on behind a file, and a directory is no file
        | file content => cases front <;> simp_all
        | locked => cases front <;> simp_all
        | closed => cases front <;> simp_all
        | link target =>
          -- behind the link only `on` knows the way
          dsimp only at hd ⊢
          simp only [← List.append_assoc]
          split at hd <;> exact hon _ _ hd

/-- A path that goes on below a directory leads where its rest leads from there, through some of the
links that are left. -/
theorem followWithin_append (hdir : t.get? loc = some .directory) {links : Nat}
    (hf : followWithin t false links here front = .ok loc) :
    ∃ rest, ∀ create names, followWithin t create links here (front ++ names) =
      followWithin t create rest loc names := by
  induction links generalizing here front with
  | zero => exact descend_append (fun _ _ _ => .error .tooManyLinks) hdir (by simp) ⟨0, fun _ => rfl⟩ hf
  | succ links ih =>
    exact descend_append (fun create => followWithin t create links) hdir (fun _ _ hf => ih hf)
      ⟨links + 1, fun _ => rfl⟩ hf

theorem followWithin_below (hf : t.follow p = .ok dir) (hdir : t.get? dir = some .directory) (create : Bool)
    (names : List Text) : ∃ onLink, followWithin t create maxLinks (t.startOf p) (p.names ++ names) =
      descend t create onLink dir names := by
  obtain ⟨rest, hrest⟩ := followWithin_append hdir hf
  obtain ⟨onLink, hon⟩ := followWithin_eq t create rest
  exact ⟨onLink, by rw [← hon]; exact hrest create names⟩

theorem landing_below (hf : t.follow p = .ok dir) (hdir : t.get? dir = some .directory) (names : List Text) :
    ∃ onLink, t.landing (p.below names) = descend t true onLink dir names :=
  followWithin_below hf hdir true names

theorem eq_of_landing_below (hf : t.follow p = .ok dir) (hdir : t.get? dir = some .directory)
    (hl : t.LinkFreeBelow dir) (hdots : ['.', '.'] ∉ names)
    (hland : t.landing (p.below names) = .ok loc) : loc = dir ++ names := by
  obtain ⟨onLink, hon⟩ := landing_below hf hdir names
  rw [hon] at hland
  exact hl.eq_of_descend hdots hland

theorem landing_child (hf : t.follow p = .ok dir) (hdir : t.get? dir = some .directory)
    (hland : t.landing (p.child name) = .ok loc) :
    loc = dir.dropLast ∨ loc = dir ++ [name] ∨ ∃ target, t.get? (dir ++ [name]) = some (.link target) := by
  obtain ⟨onLink, hon⟩ := landing_below hf hdir [name]
  rw [Path.child, hon, descend_cons_eq_ok_iff] at hland
  rcases hland with ⟨-, hd⟩ | ⟨-, ⟨-, hd⟩ | ⟨-, -, hloc⟩ | ⟨target, hget, -⟩⟩
  · exact .inl (Except.ok.inj hd).symm
  · exact .inr (.inl (Except.ok.inj hd).symm)
  · exact .inr (.inl hloc)
  · exact .inr (.inr ⟨target, hget⟩)

theorem isShortName_of_landing_child (hf : t.follow p = .ok dir) (hdir : t.get? dir = some .directory)
    (hname : name ≠ ['.', '.']) (hland : t.landing (p.child name) = .ok loc) : isShortName name = true := by
  obtain ⟨onLink, hon⟩ := landing_below hf hdir [name]
  rw [Path.child, hon, descend_cons_eq_ok_iff] at hland
  rcases hland with ⟨hdots, -⟩ | ⟨⟨-, hshort⟩, -⟩
  · exact absurd hdots hname
  · exact hshort

theorem landing_child_of_none (hf : t.follow p = .ok dir) (hdir : t.get? dir = some .directory)
    (hname : name ≠ ['.', '.']) (hshort : isShortName name = true) (hnone : t.get? (dir ++ [name]) = none) :
    t.landing (p.child name) = .ok (dir ++ [name]) := by
  obtain ⟨onLink, hon⟩ := landing_below hf hdir [name]
  rw [Path.child, hon, descend_cons_eq_ok_iff]
  exact .inr ⟨⟨hname, hshort⟩, .inr (.inl ⟨.inl ⟨rfl, hnone⟩, rfl, rfl⟩)⟩

/-! ### Below what is no directory -/

/-- Why nothing is found behind a place that is no open directory. -/
def faultBehind (t : FileTree) (loc : Location) : Fault :=
  if t.get? loc = some .closed then .denied else .notADirectory

theorem WellFormed.descend_behind {on on' : Location → List Text → Except Fault Location} (h : t.WellFormed)
    (hdir : t.get? here = some .directory) (hloc : t.get? loc ≠ some .directory) (hne : names ≠ [])
    (hon : ∀ here front, t.get? here = some .directory → on here front = .ok loc →
      on' here (front ++ names) = .error (t.faultBehind loc))
    (hd : descend t false on here front = .ok loc) :
    descend t create on' here (front ++ names) = .error (t.faultBehind loc) := by
  induction front generalizing here with
  | nil =>
    obtain rfl : here = loc := Except.ok.inj hd
    exact absurd hdir hloc
  | cons name front ih =>
    rw [descend] at hd
    rw [List.cons_append, descend]
    by_cases hname : name = ['.', '.']
    · rw [if_pos hname] at hd ⊢
      exact ih (h.get?_dropLast hdir) hd
    · rw [if_neg hname] at hd ⊢
      by_cases hshort : isShortName name = true
      swap
      · simp [hshort] at hd
      simp only [hshort, Bool.not_true, Bool.false_eq_true, if_false] at hd ⊢
      cases hget : t.get? (here ++ [name]) with
      | none => simp [hget] at hd
      | some e =>
        rw [hget] at hd
        cases e with
        | directory => exact ih hget hd
        -- this is where the path ends, so that the names that remain are too many
        | file content => cases front <;> simp_all [faultBehind]
        | locked => cases front <;> simp_all [faultBehind]
        | closed => cases front <;> simp_all [faultBehind]
        | link target =>
          dsimp only at hd ⊢
          simp only [← List.append_assoc]
          split at hd
          · exact hon _ _ hdir hd
          · exact hon _ _ (get?_nil t) hd

theorem WellFormed.followWithin_behind (h : t.WellFormed) (hp : p.anchor ≠ .relative) (hf : t.follow p = .ok loc)
    (hloc : t.get? loc ≠ some .directory) (hne : names ≠ []) (create : Bool) :
    followWithin t create maxLinks (t.startOf p) (p.names ++ names) = .error (t.faultBehind loc) := by
  have hwithin : ∀ links here front, t.get? here = some .directory → followWithin t false links here front = .ok loc →
      followWithin t create links here (front ++ names) = .error (t.faultBehind loc) := by
    intro links
    induction links with
    | zero => exact fun here front hdir => h.descend_behind hdir hloc hne (by simp)
    | succ links ih => exact fun here front hdir => h.descend_behind hdir hloc hne ih
  refine hwithin maxLinks _ _ ?_ hf
  rw [startOf_of_anchor hp, get?_nil]

/-- A path that leads to no directory leads nowhere with more names. -/
theorem WellFormed.eq_nil_of_landing_below {there : Location} (h : t.WellFormed) (hp : p.anchor ≠ .relative)
    (hf : t.follow p = .ok loc) (hloc : t.get? loc ≠ some .directory)
    (hland : t.landing (p.below names) = .ok there) : names = [] := by
  by_contra hne
  have hfails : t.landing (p.below names) = .error (t.faultBehind loc) := h.followWithin_behind hp hf hloc hne true
  rw [hfails] at hland
  cases hland

theorem WellFormed.probe_below_closed (h : t.WellFormed) (hp : p.anchor ≠ .relative) (hf : t.follow p = .ok loc)
    (hloc : t.get? loc = some .closed) (hne : names ≠ []) : t.probe (p.below names) = .error .denied := by
  have hfails : t.follow (p.below names) = .error (t.faultBehind loc) :=
    h.followWithin_behind hp hf (by simp [hloc]) hne false
  rw [faultBehind, if_pos hloc] at hfails
  simp [probe, stat, hfails, bind, Except.bind, Fault.meansAbsent]

theorem WellFormed.eq_append_of_landing_below {there : Location} (h : t.WellFormed) (hp : p.anchor ≠ .relative)
    (hf : t.follow p = .ok loc) (hl : t.LinkFreeBelow loc) (hdots : ['.', '.'] ∉ names)
    (hland : t.landing (p.below names) = .ok there) : there = loc ++ names := by
  by_cases hdir : t.get? loc = some .directory
  · exact eq_of_landing_below hf hdir hl hdots hland
  · obtain rfl := h.eq_nil_of_landing_below hp hf hdir hland
    have hland : t.landing p = .ok there := by simpa [Path.below] using hland
    rw [landing_of_follow hf] at hland
    rw [List.append_nil, Except.ok.inj hland]

/-! ### Copies -/

theorem of_copy_eq_ok {u : FileTree} (hc : t.copy source target = .ok u) :
    (∃ content, t.read source = .ok content) ∧ ∃ loc, t.landing target = .ok loc := by
  unfold FileTree.copy at hc
  split at hc
  · cases hc
  · split at hc
    · cases hc
    · rename_i content hread
      cases hw : t.write target content with
      | error fault => simp [hw, Except.mapError] at hc
      | ok u =>
        obtain ⟨loc, hland, -⟩ := of_write_eq_ok hw
        exact ⟨⟨content, hread⟩, loc, hland⟩

/-- A copy to a place that can be written to, and where the source is not, fails only if the source
cannot be read. -/
theorem copy_isOk_iff (hland : t.landing target = .ok loc) (hfree : t.IsFree loc)
    (hsource : t.landing source ≠ .ok loc) :
    (∃ u, t.copy source target = .ok u) ↔ ∃ content, t.read source = .ok content := by
  have hplaces : t.isSamePlace source target = false := by
    unfold isSamePlace
    split
    · rename_i a b ha hb
      have hb := landing_of_follow hb
      rw [hland] at hb
      obtain rfl := Except.ok.inj hb
      have hne : a ≠ loc := by
        rintro rfl
        exact hsource (landing_of_follow ha)
      simpa using hne
    · rfl
  rw [copy, hplaces, if_neg Bool.false_ne_true]
  cases hread : t.read source with
  | error fault => simp
  | ok content => simp [write_of_isFree hland hfree content, Except.mapError]

end GenScope.FileTree
