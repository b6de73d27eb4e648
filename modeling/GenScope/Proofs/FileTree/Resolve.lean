import GenScope.Proofs.FileTree.Unseen

/-!
# Resolving and following

Resolving a path reads links, following a path reads what they lead to as well. Where following
succeeds, resolving gives the location it ends at (`WellFormed.resolve_of_follow`): a link that is met
again while its own target is being resolved would be followed without end. What a path resolves to
depends on the links of the tree only (`SameWays.resolve_eq`), because no more links are nested than there are
entries.
-/

namespace GenScope.FileTree

variable {t t' before after : FileTree} {here there loc dir : Location} {name : Text} {names more behind : List Text}
  {p : Path} {e : Entry} {links depth depth' : Nat} {pending : List Location} {target : Text}

/-! ### Following, step by step -/

theorem followWithin_cons_eq_ok_iff : followWithin t false links here (name :: names) = .ok loc ↔
    (name = ['.', '.'] ∧ followWithin t false links here.dropLast names = .ok loc) ∨
    ((name ≠ ['.', '.'] ∧ isShortName name = true) ∧
      ((t.get? (here ++ [name]) = some .directory ∧ followWithin t false links (here ++ [name]) names = .ok loc) ∨
        ((t.get? (here ++ [name])).any Entry.isEnd = true ∧ names = [] ∧ loc = here ++ [name]) ∨
        ∃ target left, links = left + 1 ∧ t.get? (here ++ [name]) = some (.link target) ∧
          followWithin t false left (linkStart here target) (Path.namesOf target ++ names) = .ok loc)) := by
  have hend : t.CanEnd false (here ++ [name]) ↔ (t.get? (here ++ [name])).any Entry.isEnd = true := by
    simp [CanEnd]
  cases links with
  | zero => simp [followWithin, descend_cons_eq_ok_iff, hend]
  | succ links => simp [followWithin, descend_cons_eq_ok_iff, hend]

/-- Where the first names lead from one place, whatever stands behind them, the second ones lead from
another place, and through no more links. -/
def LeadsOn (t : FileTree) (here : Location) (names : List Text) (there : Location) (rest : List Text) : Prop :=
  ∀ links behind loc, followWithin t false links here (names ++ behind) = .ok loc →
    ∃ links' ≤ links, followWithin t false links' there (rest ++ behind) = .ok loc

namespace LeadsOn

variable {rest rest' : List Text} {there' : Location}

theorem refl (t : FileTree) (here : Location) (names : List Text) : LeadsOn t here names here names :=
  fun links _ _ hf => ⟨links, le_rfl, hf⟩

theorem trans (h : LeadsOn t here names there rest) (h' : LeadsOn t there rest there' rest') :
    LeadsOn t here names there' rest' := by
  intro links behind loc hf
  obtain ⟨links', hle, hf⟩ := h links behind loc hf
  obtain ⟨links'', hle', hf⟩ := h' links' behind loc hf
  exact ⟨links'', hle'.trans hle, hf⟩

theorem append (h : LeadsOn t here names there rest) (more : List Text) :
    LeadsOn t here (names ++ more) there (rest ++ more) := by
  intro links behind loc hf
  rw [List.append_assoc] at hf ⊢
  exact h links (more ++ behind) loc hf

theorem up (hname : name = ['.', '.']) : LeadsOn t here (name :: names) here.dropLast names := by
  intro links behind loc hf
  rw [List.cons_append, followWithin_cons_eq_ok_iff] at hf
  rcases hf with ⟨-, hf⟩ | ⟨⟨hne, -⟩, -⟩
  · exact ⟨links, le_rfl, hf⟩
  · exact absurd hname hne

theorem down (hname : name ≠ ['.', '.']) (hget : t.get? (here ++ [name]) = some .directory) :
    LeadsOn t here (name :: names) (here ++ [name]) names := by
  intro links behind loc hf
  rw [List.cons_append, followWithin_cons_eq_ok_iff, hget] at hf
  rcases hf with ⟨heq, -⟩ | ⟨-, ⟨-, hf⟩ | ⟨hfile, -⟩ | ⟨target, left, -, hlink, -⟩⟩
  · exact absurd heq hname
  · exact ⟨links, le_rfl, hf⟩
  · cases hfile
  · cases hlink

theorem ending (hname : name ≠ ['.', '.']) (hend : (t.get? (here ++ [name])).any Entry.isEnd = true) :
    LeadsOn t here [name] (here ++ [name]) [] := by
  intro links behind loc hf
  rw [List.singleton_append, followWithin_cons_eq_ok_iff] at hf
  rcases hf with ⟨heq, -⟩ | ⟨-, ⟨hdir, -⟩ | ⟨-, rfl, rfl⟩ | ⟨target, left, -, hlink, -⟩⟩
  · exact absurd heq hname
  · rw [hdir] at hend
    cases hend
  · obtain ⟨onLink, hon⟩ := followWithin_eq t false links
    exact ⟨links, le_rfl, by rw [hon]; rfl⟩
  · rw [hlink] at hend
    cases hend

theorem of_link (hname : name ≠ ['.', '.']) (hget : t.get? (here ++ [name]) = some (.link target))
    (hf : followWithin t false links here (name :: names) = .ok loc) :
    ∃ left < links, followWithin t false left (linkStart here target) (Path.namesOf target ++ names) = .ok loc := by
  rw [followWithin_cons_eq_ok_iff, hget] at hf
  rcases hf with ⟨heq, -⟩ | ⟨-, ⟨hdir, -⟩ | ⟨hfile, -⟩ | ⟨other, left, rfl, hlink, hf⟩⟩
  · exact absurd heq hname
  · cases hdir
  · cases hfile
  · obtain rfl := Entry.link.inj (Option.some.inj hlink)
    exact ⟨left, Nat.lt_succ_self left, hf⟩

theorem link (hname : name ≠ ['.', '.']) (hget : t.get? (here ++ [name]) = some (.link target)) :
    LeadsOn t here (name :: names) (linkStart here target) (Path.namesOf target ++ names) := by
  intro links behind loc hf
  obtain ⟨left, hlt, hf⟩ := of_link hname hget hf
  exact ⟨left, hlt.le, by rwa [List.append_assoc]⟩

/-- The target of a link that leads back to the link is followed without end. -/
theorem not_follow_of_loop (hname : name ≠ ['.', '.']) (hget : t.get? (here ++ [name]) = some (.link target))
    (hloop : LeadsOn t (linkStart here target) (Path.namesOf target) here (name :: more)) :
    followWithin t false links (linkStart here target) (Path.namesOf target ++ behind) ≠ .ok loc := by
  induction links using Nat.strong_induction_on generalizing behind with
  | _ links ih =>
    intro hf
    obtain ⟨links', hle, hf⟩ := hloop links behind loc hf
    obtain ⟨left, hlt, hf⟩ := of_link hname hget hf
    exact ih left (hlt.trans_le hle) hf

end LeadsOn

/-! ### Links whose targets are being resolved -/

/-- The links are different ones of the tree. -/
structure ArePending (t : FileTree) (pending : List Location) : Prop where
  nodup : pending.Nodup
  link : ∀ loc ∈ pending, ∃ target, t.get? loc = some (.link target)

namespace ArePending

theorem nil (t : FileTree) : ArePending t [] := ⟨List.nodup_nil, by simp⟩

theorem cons (h : ArePending t pending) (hget : t.get? loc = some (.link target)) (hnew : loc ∉ pending) :
    ArePending t (loc :: pending) :=
  ⟨List.nodup_cons.2 ⟨hnew, h.nodup⟩, by
    rw [List.forall_mem_cons]
    exact ⟨⟨target, hget⟩, h.link⟩⟩

theorem length_le (h : ArePending t pending) : pending.length ≤ t.entries.length := by
  have hsub : pending ⊆ t.entries.map Prod.fst := by
    intro loc hloc
    obtain ⟨target, hget⟩ := h.link loc hloc
    have hne : loc ≠ [] := by
      rintro rfl
      simp at hget
    exact List.mem_map_of_mem (f := Prod.fst) (mem_of_get? hne hget)
  simpa using (List.subperm_of_subset h.nodup hsub).length_le

end ArePending

/-! ### Resolving, step by step -/

section ResolveNames

variable {onLink : Location → Location → List Text → Location × Bool}

theorem resolveNames_nil : resolveNames t onLink here [] = (here, true) := rfl

theorem resolveNames_up (hname : name = ['.', '.']) :
    resolveNames t onLink here (name :: names) = resolveNames t onLink here.dropLast names := by
  rw [resolveNames, if_pos hname]

theorem resolveNames_down (hname : name ≠ ['.', '.']) (hget : ∀ target, t.get? (here ++ [name]) ≠ some (.link target)) :
    resolveNames t onLink here (name :: names) = resolveNames t onLink (here ++ [name]) names := by
  rw [resolveNames, if_neg hname]
  split
  · rename_i target hlink
    exact absurd hlink (hget target)
  · rfl

theorem resolveNames_link (hname : name ≠ ['.', '.']) (hget : t.get? (here ++ [name]) = some (.link target)) :
    resolveNames t onLink here (name :: names) =
      match onLink (here ++ [name]) (linkStart here target) (Path.namesOf target) with
      | (there, true) => resolveNames t onLink there names
      | (there, false) => (there ++ names, false) := by
  rw [resolveNames, if_neg hname, hget]
  rfl

/-- A pending link is kept; the target of another one is resolved while it is pending. -/
theorem resolveWithin_succ (t : FileTree) (depth : Nat) (pending : List Location) :
    ∃ onLink, resolveWithin t (depth + 1) pending = resolveNames t onLink ∧
      (∀ loc ∈ pending, ∀ dir names, onLink loc dir names = (loc, false)) ∧
      ∀ loc ∉ pending, onLink loc = resolveWithin t depth (loc :: pending) := by
  refine ⟨_, rfl, fun loc hmem dir names => if_pos (by simpa using hmem), fun loc hmem => ?_⟩
  funext dir names
  exact if_neg (by simpa using hmem)

theorem resolveNames_of_not_link (hdots : ['.', '.'] ∉ names)
    (hlink : ∀ front, front <+: names → ∀ target, t.get? (here ++ front) ≠ some (.link target)) :
    resolveNames t onLink here names = (here ++ names, true) := by
  induction names generalizing here with
  | nil => simp [resolveNames]
  | cons name names ih =>
    obtain ⟨hname, hdots⟩ := not_or.1 (mt List.mem_cons.2 hdots)
    have hfirst : ∀ target, t.get? (here ++ [name]) ≠ some (.link target) := hlink [name] ⟨names, rfl⟩
    rw [resolveNames_down (Ne.symm hname) hfirst, ih hdots fun front hfront target => ?_]
    · simp
    · simpa using hlink (name :: front) (List.cons_prefix_cons.2 ⟨rfl, hfront⟩) target

end ResolveNames

/-! ### Where resolving ends -/

/-- The targets of the pending links lead to where the resolving stands. -/
def IsTrail (t : FileTree) (pending : List Location) (here : Location) (names : List Text) : Prop :=
  ∀ loc ∈ pending, ∃ target more, t.get? loc = some (.link target) ∧
    LeadsOn t (linkStart loc.dropLast target) (Path.namesOf target) here (names ++ more)

theorem IsTrail.step (h : IsTrail t pending here names) {rest : List Text} (hstep : LeadsOn t here names there rest) :
    IsTrail t pending there rest := by
  intro loc hloc
  obtain ⟨target, more, hget, hlead⟩ := h loc hloc
  exact ⟨target, more, hget, hlead.trans (hstep.append more)⟩

/-- A link that can be followed is not pending, and its target is pending with it on the same trail. -/
theorem IsTrail.link (h : IsTrail t pending here (name :: names)) (hname : name ≠ ['.', '.'])
    (hget : t.get? (here ++ [name]) = some (.link target))
    (hf : followWithin t false links here (name :: names ++ behind) = .ok loc) :
    here ++ [name] ∉ pending ∧ IsTrail t ((here ++ [name]) :: pending) (linkStart here target) (Path.namesOf target) := by
  have hdir : (here ++ [name]).dropLast = here := List.dropLast_concat
  constructor
  · intro hmem
    obtain ⟨other, more, hother, hloop⟩ := h _ hmem
    obtain rfl := Entry.link.inj (Option.some.inj (hother.symm.trans hget))
    rw [hdir] at hloop
    obtain ⟨left, -, hf⟩ := LeadsOn.of_link hname hget hf
    exact LeadsOn.not_follow_of_loop hname hget hloop hf
  · intro loc hloc
    rcases List.mem_cons.1 hloc with rfl | hloc
    · exact ⟨target, [], hget, by rw [hdir, List.append_nil]; exact LeadsOn.refl _ _ _⟩
    · obtain ⟨other, more, hother, hlead⟩ := h loc hloc
      refine ⟨other, names ++ more, hother, hlead.trans ?_⟩
      exact LeadsOn.link hname hget

theorem resolveWithin_of_follow (hdepth : t.entries.length < depth + pending.length) (hpending : ArePending t pending)
    (htrail : IsTrail t pending here names) (hf : followWithin t false links here (names ++ behind) = .ok loc) :
    ∃ there, resolveWithin t depth pending here names = (there, true) ∧ LeadsOn t here names there [] := by
  induction depth generalizing pending here names links behind with
  | zero => exact absurd hpending.length_le (by omega)
  | succ depth ih =>
    obtain ⟨onLink, hon, -, hnested⟩ := resolveWithin_succ t depth pending
    rw [hon]
    induction names generalizing here links with
    | nil => exact ⟨here, resolveNames_nil, LeadsOn.refl _ _ _⟩
    | cons name names ihnames =>
      -- the run goes on from any place to which the first name leads
      have hstep : ∀ {there : Location}, LeadsOn t here (name :: names) there names →
          ∃ last, resolveNames t onLink there names = (last, true) ∧ LeadsOn t here (name :: names) last [] := by
        intro there hlead
        obtain ⟨links', -, hf'⟩ := hlead links behind loc hf
        obtain ⟨last, hlast, hrest⟩ := ihnames (htrail.step hlead) hf'
        exact ⟨last, hlast, hlead.trans hrest⟩
      rcases followWithin_cons_eq_ok_iff.1 hf with
        ⟨hname, -⟩ | ⟨⟨hname, -⟩, ⟨hget, -⟩ | ⟨hend, hnil, -⟩ | ⟨target, left, -, hget, hf'⟩⟩
      · rw [resolveNames_up hname]
        exact hstep (.up hname)
      · rw [resolveNames_down hname (by simp [hget])]
        exact hstep (.down hname hget)
      · obtain ⟨rfl, -⟩ := List.append_eq_nil_iff.1 hnil
        have hlink : ∀ target, t.get? (here ++ [name]) ≠ some (.link target) := by
          intro target hget
          rw [hget] at hend
          cases hend
        rw [resolveNames_down hname hlink]
        exact hstep (.ending hname hend)
      · obtain ⟨hnew, htrail'⟩ := htrail.link hname hget hf
        have hdepth' : t.entries.length < depth + ((here ++ [name]) :: pending).length := by
          rw [List.length_cons]
          omega
        obtain ⟨there, hthere, hlead⟩ := ih hdepth' (hpending.cons hget hnew) htrail' hf'
        rw [resolveNames_link hname hget, hnested _ hnew, hthere]
        exact hstep ((LeadsOn.link hname hget).trans (hlead.append names))

theorem collapse_of_not_mem (h : ['.', '.'] ∉ names) : collapse here names = here ++ names := by
  induction names generalizing here with
  | nil => simp [collapse]
  | cons name names ih =>
    obtain ⟨hname, hnames⟩ := not_or.1 (mt List.mem_cons.2 h)
    rw [collapse, if_neg (Ne.symm hname), ih hnames]
    simp

theorem WellFormed.resolve_of_follow (h : t.WellFormed) (hf : t.follow p = .ok loc) (hget : t.get? loc = some e) :
    t.resolve p = ⟨.top, loc⟩ := by
  have hf' : followWithin t false maxLinks (t.startOf p) (p.names ++ []) = .ok loc := by rwa [List.append_nil]
  have hdepth : t.entries.length < t.entries.length + 1 + ([] : List Location).length := by simp
  obtain ⟨there, hthere, hlead⟩ := resolveWithin_of_follow hdepth (.nil t) (by simp [IsTrail]) hf'
  obtain ⟨links, -, hlast⟩ := hlead _ _ _ hf'
  obtain ⟨onLink, hon⟩ := followWithin_eq t false links
  obtain rfl : there = loc := by
    rw [hon] at hlast
    exact Except.ok.inj hlast
  rw [resolve, hthere, collapse_of_not_mem (h.dots_not_mem hget), List.nil_append]

theorem WellFormed.not_link_of_prefix (h : t.WellFormed) (hget : t.get? loc = some e) (he : e.isDirectory = true)
    {front : Location} (hfront : front <+: loc) : t.get? front ≠ some (.link target) := by
  obtain ⟨rest, rfl⟩ := hfront
  by_cases hrest : rest = []
  · subst hrest
    rw [List.append_nil] at hget
    rw [hget]
    rintro ⟨⟩
    cases he
  · simp [h.get?_of_append hget hrest]

/-- The path of a directory resolves to itself if and only if no link lies on the way that its names
spell. -/
theorem WellFormed.resolve_top_eq_self_iff (h : t.WellFormed) (hdir : t.isDirectory ⟨.top, names⟩ = true)
    (hdots : ['.', '.'] ∉ names) : t.resolve ⟨.top, names⟩ = ⟨.top, names⟩ ↔
      ∀ front, front <+: names → ∀ target, t.get? front ≠ some (.link target) := by
  constructor
  · intro hself front hfront target
    obtain ⟨e, hstat, he⟩ := isDirectory_iff.1 hdir
    obtain ⟨loc, hf, hget⟩ := follow_of_stat hstat
    obtain rfl : loc = names := (Path.mk.inj ((h.resolve_of_follow hf hget).symm.trans hself)).2
    exact h.not_link_of_prefix hget he hfront
  · intro hlink
    have hnames : (resolveWithin t (t.entries.length + 1) [] (t.startOf ⟨.top, names⟩) names).1 = names := by
      rw [resolveWithin, resolveNames_of_not_link hdots fun front hfront => hlink front hfront]
      rfl
    rw [resolve, hnames, collapse_of_not_mem hdots, List.nil_append]

/-! ### What does not depend on files -/

theorem resolveWithin_congr (hlink : ∀ loc target, t'.get? loc = some (.link target) ↔ t.get? loc = some (.link target))
    (hdepth : t.entries.length < depth + pending.length) (hdepth' : t'.entries.length < depth' + pending.length)
    (hpending : ArePending t pending) : resolveWithin t' depth' pending = resolveWithin t depth pending := by
  induction depth generalizing depth' pending with
  | zero => exact absurd hpending.length_le (by omega)
  | succ depth ih =>
    cases depth' with
    | zero =>
      have hpending' : ArePending t' pending :=
        ⟨hpending.nodup, fun loc hloc => (hpending.link loc hloc).imp fun target => (hlink loc target).2⟩
      exact absurd hpending'.length_le (by omega)
    | succ depth' =>
      obtain ⟨onLink, hon, hkept, hnested⟩ := resolveWithin_succ t depth pending
      obtain ⟨onLink', hon', hkept', hnested'⟩ := resolveWithin_succ t' depth' pending
      rw [hon, hon']
      funext here names
      induction names generalizing here with
      | nil => rw [resolveNames_nil, resolveNames_nil]
      | cons name names ihnames =>
        by_cases hname : name = ['.', '.']
        · rw [resolveNames_up hname, resolveNames_up hname, ihnames]
        by_cases hget : ∃ target, t.get? (here ++ [name]) = some (.link target)
        · obtain ⟨target, hget⟩ := hget
          rw [resolveNames_link hname hget, resolveNames_link hname ((hlink _ _).2 hget)]
          by_cases hmem : here ++ [name] ∈ pending
          · rw [hkept _ hmem, hkept' _ hmem]
          · have hdepths : ∀ {n d : Nat}, n < d + 1 + pending.length → n < d + ((here ++ [name]) :: pending).length := by
              intro n d hlt
              rw [List.length_cons]
              omega
            rw [hnested _ hmem, hnested' _ hmem, ih (hdepths hdepth) (hdepths hdepth') (hpending.cons hget hmem)]
            split
            · exact ihnames _
            · rfl
        · rw [not_exists] at hget
          rw [resolveNames_down hname hget, resolveNames_down hname fun target => mt (hlink _ _).1 (hget target), ihnames]

theorem SameWays.resolve_eq (h : SameWays t t') (p : Path) : t'.resolve p = t.resolve p := by
  have hwithin : resolveWithin t' (t'.entries.length + 1) [] = resolveWithin t (t.entries.length + 1) [] :=
    resolveWithin_congr h.link (by simp) (by simp) (.nil t)
  rw [resolve, resolve, hwithin, h.startOf_eq]

end GenScope.FileTree
