import GenScope.Path
import GenScope.Proofs.Text.Join

/-!
# Paths as texts

A path is read back from its text if text can spell its names (`ofText_toText`), so that the paths that
texts give are told apart by their texts (`toText_ofText_inj`). The texts of paths from the top tell them
apart if no name holds a slash (`IsEntryPath.toText_inj`).
-/

namespace GenScope

/-- The name can be that of an entry of a directory. -/
structure IsEntryName (name : Text) : Prop where
  ne_nil : name ≠ []
  slash : '/' ∉ name
  dot : name ≠ ['.']
  dots : name ≠ ['.', '.']

instance (name : Text) : Decidable (IsEntryName name) :=
  decidable_of_iff (name ≠ [] ∧ '/' ∉ name ∧ name ≠ ['.'] ∧ name ≠ ['.', '.'])
    ⟨fun h => ⟨h.1, h.2.1, h.2.2.1, h.2.2.2⟩, fun h => ⟨h.1, h.2, h.3, h.4⟩⟩

/-- The name can stand between the separators of a path. Unlike an entry's it may be two dots. -/
structure IsPathName (name : Text) : Prop where
  ne_nil : name ≠ []
  slash : '/' ∉ name
  dot : name ≠ ['.']

theorem IsEntryName.isPathName {name : Text} (h : IsEntryName name) : IsPathName name := ⟨h.ne_nil, h.slash, h.dot⟩

namespace Path

variable {names : List Text} {p q : Path} {name name' extension : Text}

/-! ### Texts -/

theorem isPathName_of_mem_namesOf {s : Text} (h : name ∈ namesOf s) : IsPathName name := by
  obtain ⟨hmem, hkeep⟩ := List.mem_filter.1 h
  refine ⟨?_, fun hslash => ?_, ?_⟩
  · rintro rfl; simp at hkeep
  · simpa using Text.not_sep_of_mem_split hmem '/' hslash
  · rintro rfl; simp at hkeep

theorem namesOf_join (h : ∀ name ∈ names, IsPathName name) : namesOf (Text.join "/" names) = names := by
  have hkeep : names.filter (fun name => name != [] && name != ['.']) = names :=
    List.filter_eq_self.2 fun name hn => by simp [(h name hn).ne_nil, (h name hn).dot]
  by_cases hnil : names = []
  · subst hnil; rfl
  · have hsplit : Text.split (· == '/') (Text.join "/" names) = names :=
      Text.split_join hnil fun name hn => (h name hn).slash
    rw [namesOf, hsplit, hkeep]

theorem head?_join (h : ∀ name ∈ names, IsPathName name) : (Text.join "/" names).head? ≠ some '/' := by
  cases names with
  | nil => simp
  | cons name names =>
    obtain ⟨c, s, hname⟩ := List.exists_cons_of_ne_nil (h name (by simp)).ne_nil
    have hc : c ≠ '/' := by
      rintro rfl; exact (h name (by simp)).slash (by simp [hname])
    cases names with
    | nil => simpa [hname] using hc
    | cons next names => simpa [Text.join_cons_cons, hname] using hc

theorem toText_top (names : List Text) : toText ⟨.top, names⟩ = '/' :: Text.join "/" names := by
  simp [toText, Anchor.written]

/-- A path is read back from its text. -/
theorem ofText_toText (h : ∀ name ∈ p.names, IsPathName name) : ofText p.toText = p := by
  obtain ⟨anchor, names⟩ := p
  have hhead := head?_join h
  have hslash : ∀ s : Text, namesOf ('/' :: s) = namesOf s := fun s => by simp [namesOf, Text.split]
  have hnames : namesOf (Text.join "/" names) = names := namesOf_join h
  cases anchor with
  | relative =>
    cases names with
    | nil => rfl
    | cons name names =>
      show (⟨anchorOf (Text.join "/" (name :: names)), namesOf (Text.join "/" (name :: names))⟩ : Path) = _
      have hanchor : anchorOf (Text.join "/" (name :: names)) = .relative := by
        unfold anchorOf
        split <;> simp_all
      rw [hanchor, hnames]
  | top =>
    have hanchor : anchorOf ('/' :: Text.join "/" names) = .top := by
      unfold anchorOf
      split <;> simp_all
    rw [toText_top, ofText, hanchor, hslash, hnames]
  | doubled =>
    have hanchor : anchorOf ('/' :: '/' :: Text.join "/" names) = .doubled := by
      unfold anchorOf
      split
      · simp_all
      · rfl
      · rename_i hnot heq
        exact (hnot _ (List.cons.inj heq).2.symm).elim
      · simp_all
    show ofText ('/' :: '/' :: Text.join "/" names) = _
    rw [ofText, hanchor, hslash, hslash, hnames]

theorem ofText_toText_top (h : ∀ name ∈ names, IsEntryName name) :
    ofText (toText ⟨.top, names⟩) = ⟨.top, names⟩ := ofText_toText fun name hn => (h name hn).isPathName

theorem ofText_toText_relative (h : ∀ name ∈ names, IsEntryName name) :
    ofText (toText ⟨.relative, names⟩) = ⟨.relative, names⟩ := ofText_toText fun name hn => (h name hn).isPathName

theorem toText_ofText_inj {s u : Text} : (ofText s).toText = (ofText u).toText ↔ ofText s = ofText u := by
  have hread : ∀ v : Text, ofText (ofText v).toText = ofText v := fun v =>
    ofText_toText fun _ hn => isPathName_of_mem_namesOf hn
  constructor
  · intro h
    rw [← hread s, ← hread u, h]
  · exact fun h => by rw [h]

theorem anchor_ofText_slash (s : Text) : (ofText ('/' :: s)).anchor ≠ .relative := by
  show anchorOf ('/' :: s) ≠ .relative
  unfold anchorOf
  split <;> simp_all

theorem anchor_ofText_toText_top (names : List Text) : (ofText (toText ⟨.top, names⟩)).anchor ≠ .relative := by
  rw [toText_top]
  exact anchor_ofText_slash _

theorem name_isSuffix_toText (p : Path) : p.name <:+ p.toText := by
  obtain ⟨anchor, names⟩ := p
  rcases List.eq_nil_or_concat names with rfl | ⟨dir, last, rfl⟩
  · exact List.nil_suffix
  · rw [List.concat_eq_append]
    have hname : name ⟨anchor, dir ++ [last]⟩ = last := by simp [Path.name, List.getLastD_eq_getLast?]
    have htext : toText ⟨anchor, dir ++ [last]⟩ = Anchor.written anchor ++ Text.join "/" (dir ++ [last]) := by
      cases anchor <;> cases dir <;> rfl
    rw [hname, htext]
    refine List.IsSuffix.trans ?_ (List.suffix_append _ _)
    by_cases hdir : dir = []
    · subst hdir; simp
    · rw [Text.join_concat _ hdir]
      exact List.suffix_append _ _

/-! ### Entries of a directory -/

/-- The path can be that of an entry, given from the top. -/
structure IsEntryPath (p : Path) : Prop where
  anchor : p.anchor = .top
  names_ne : p.names ≠ []
  slash : ∀ name ∈ p.names, '/' ∉ name

theorem below_inj {names' : List Text} : p.below names = p.below names' ↔ names = names' := by
  simp [below]

@[simp] theorem name_below_append (p : Path) (names : List Text) (name : Text) :
    (p.below (names ++ [name])).name = name := by
  simp [Path.name, below, List.getLastD_eq_getLast?]

@[simp] theorem name_child (p : Path) (name : Text) : (p.child name).name = name := name_below_append p [] name

theorem child_inj : p.child name = q.child name' ↔ p = q ∧ name = name' := by
  obtain ⟨a, ns⟩ := p
  obtain ⟨b, ms⟩ := q
  simp only [child, below, mk.injEq]
  constructor
  · rintro ⟨rfl, h⟩
    obtain ⟨rfl, hname⟩ := List.append_inj' h rfl
    exact ⟨⟨rfl, rfl⟩, by simpa using hname⟩
  · rintro ⟨⟨rfl, rfl⟩, rfl⟩
    exact ⟨rfl, rfl⟩

theorem IsEntryPath.exists_child (h : p.IsEntryPath) : ∃ dir : Path, p = dir.child p.name := by
  obtain ⟨anchor, names⟩ := p
  rcases List.eq_nil_or_concat names with rfl | ⟨dir, name, rfl⟩
  · exact absurd rfl h.names_ne
  · exact ⟨⟨anchor, dir⟩, by simp [Path.name, child, below, List.getLastD_eq_getLast?]⟩

theorem IsEntryPath.anchor_dir (h : (p.child name).IsEntryPath) : p.anchor = .top := h.anchor

theorem IsEntryPath.of_child (h : (p.child (name ++ extension)).IsEntryPath) : (p.child name).IsEntryPath where
  anchor := h.anchor
  names_ne := by simp [child, below]
  slash := by
    intro n hn hmem
    rcases List.mem_append.1 hn with hn | hn
    · exact h.slash n (by simp [child, below, hn]) hmem
    · obtain rfl := List.mem_singleton.1 hn
      exact h.slash (n ++ extension) (by simp [child, below]) (by simp [hmem])

theorem IsEntryPath.toText_inj (hp : p.IsEntryPath) (hq : q.IsEntryPath) : p.toText = q.toText ↔ p = q := by
  refine ⟨fun h => ?_, fun h => by rw [h]⟩
  obtain ⟨a, ns⟩ := p
  obtain ⟨b, ms⟩ := q
  obtain rfl : a = .top := hp.anchor
  obtain rfl : b = .top := hq.anchor
  have hjoin : Text.join ['/'] ns = Text.join ['/'] ms := by
    simpa [toText, Anchor.written] using h
  have hns : Text.split (· == '/') (Text.join ['/'] ns) = ns := Text.split_join hp.names_ne hp.slash
  have hms : Text.split (· == '/') (Text.join ['/'] ms) = ms := Text.split_join hq.names_ne hq.slash
  rw [← hns, ← hms, hjoin]

end Path

end GenScope
