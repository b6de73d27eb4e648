import GenScope.Comparison.Difference
import GenScope.Proofs.FileTree.Lookup
import GenScope.Settings.Inspector

/-!
# Directories of accepted settings

A directory setting is kept as the text of a path from the top. The path that is read from the text
leads to a directory (`isDirectory_of_readDirectory`), which in a tree without links lies under these names
(`readDirectory_valid`), and so do the roots of all accepted settings.
-/

namespace GenScope

/-! ### Reading a directory -/

namespace FileTree

variable {t : FileTree}

theorem not_mem_collapse {here : Location} {names : List Text} (h : ['.', '.'] ∉ here) :
    ['.', '.'] ∉ collapse here names := by
  induction names generalizing here with
  | nil => simpa [collapse] using h
  | cons name names ih =>
    rw [collapse]
    split
    · exact ih fun hm => h (List.mem_of_mem_dropLast hm)
    · rename_i hname
      exact ih (by simp [h, Ne.symm hname])

theorem expandHome_of_anchor {p : Path} (h : p.anchor ≠ .relative) : t.expandHome p = .ok p := by
  unfold expandHome
  split
  · rename_i hrelative _
    exact absurd hrelative h
  · rfl

/-- An accepted directory is the text of a resolved path that leads to one. -/
theorem readDirectory_eq_valid_iff {what value s : Text} : readDirectory t what value = .ok (.valid s) ↔
    Text.trim value ≠ [] ∧ '\x00' ∉ Text.trim value ∧ ∃ p, t.expandHome (Path.ofText (Text.trim value)) = .ok p ∧
      (∃ e, t.ask (t.resolve p) = .ok e ∧ e.isDirectory = true) ∧ s = (t.resolve p).toText := by
  unfold readDirectory
  dsimp only
  by_cases hnil : Text.trim value = []
  · simp [hnil, Checked.fail]
  by_cases hnul : '\x00' ∈ Text.trim value
  · simp [hnil, hnul, Checked.fail]
  rw [if_neg (by simpa using hnil), if_neg (by simpa using hnul)]
  cases hp : t.expandHome (Path.ofText (Text.trim value)) with
  | error fault => simp [bind, Except.bind]
  | ok p =>
    rcases hask : t.ask (t.resolve p) with fault | e
    · cases fault <;> simp [hask, bind, Except.bind, Checked.fail, Fault.meansAbsent]
    · by_cases he : e.isDirectory = true
      · simp [hask, he, hnil, hnul, bind, Except.bind]
        exact eq_comm
      · simp [hask, he, hnil, hnul, bind, Except.bind, Checked.fail]

theorem names_of_descend {P : Text → Prop} (hP : ∀ {loc e}, t.get? loc = some e → ∀ name ∈ loc, P name)
    {onLink : Location → List Text → Except Fault Location}
    (hlink : ∀ here names loc, onLink here names = .ok loc → ∀ name ∈ names, name ≠ ['.', '.'] → P name)
    {here : Location} {names : List Text} {loc : Location} (hd : descend t false onLink here names = .ok loc) :
    ∀ name ∈ names, name ≠ ['.', '.'] → P name := by
  induction names generalizing here with
  | nil => simp
  | cons first rest ih =>
    rw [descend] at hd
    split at hd
    · rename_i hfirst
      intro name hname hdots
      rcases List.mem_cons.1 hname with rfl | hname
      · exact absurd hfirst hdots
      · exact ih hd name hname hdots
    · split at hd
      · cases hd
      cases hget : t.get? (here ++ [first]) with
      | none => simp [hget] at hd
      | some e =>
        have hproper : P first := hP hget first (by simp)
        suffices hrest : ∀ name ∈ rest, name ≠ ['.', '.'] → P name by
          intro name hname hdots
          rcases List.mem_cons.1 hname with rfl | hname
          · exact hproper
          · exact hrest name hname hdots
        rw [hget] at hd
        cases e with
        | directory => exact ih hd
        | file content => cases rest <;> simp at hd ⊢
        | locked => cases rest <;> simp at hd ⊢
        | closed => cases rest <;> simp at hd ⊢
        | link target =>
          dsimp only at hd
          intro name hname
          split at hd <;> exact hlink _ _ _ hd name (by simp [hname])

theorem names_of_follow {P : Text → Prop} (hP : ∀ {loc e}, t.get? loc = some e → ∀ name ∈ loc, P name)
    {p : Path} {loc : Location} (hf : t.follow p = .ok loc) : ∀ name ∈ p.names, name ≠ ['.', '.'] → P name := by
  have hwithin : ∀ links here names loc, followWithin t false links here names = .ok loc →
      ∀ name ∈ names, name ≠ ['.', '.'] → P name := by
    intro links
    induction links with
    | zero => exact fun here names loc => names_of_descend hP (by simp)
    | succ links ih => exact fun here names loc => names_of_descend hP ih
  exact hwithin _ _ _ _ hf

theorem dots_not_mem_resolve (p : Path) : ['.', '.'] ∉ (t.resolve p).names := not_mem_collapse (by simp)

/-- A resolved path that leads somewhere is read back from its text, links or not. -/
theorem WellFormed.ofText_resolve (h : t.WellFormed) {p : Path} {e : Entry} (hstat : t.stat (t.resolve p) = .ok e) :
    Path.ofText (t.resolve p).toText = t.resolve p := by
  obtain ⟨loc, hf, -⟩ := follow_of_stat hstat
  exact Path.ofText_toText_top fun name hname =>
    names_of_follow h.names hf name hname fun he => dots_not_mem_resolve p (he ▸ hname)

theorem WellFormed.isDirectory_of_readDirectory (h : t.WellFormed) {what value s : Text}
    (hr : readDirectory t what value = .ok (.valid s)) :
    ∃ names, Path.ofText s = ⟨.top, names⟩ ∧ t.isDirectory ⟨.top, names⟩ = true := by
  obtain ⟨-, -, p, -, ⟨e, hask, he⟩, rfl⟩ := readDirectory_eq_valid_iff.1 hr
  have hstat := (ask_eq_ok_iff.1 hask).2
  exact ⟨_, h.ofText_resolve hstat, isDirectory_iff.2 ⟨e, hstat, he⟩⟩

theorem WellFormed.readDirectory_valid (h : t.WellFormed) (hl : t.LinkFree) {what value s : Text}
    (hr : readDirectory t what value = .ok (.valid s)) :
    ∃ loc e, t.get? loc = some e ∧ e.isDirectory = true ∧ Path.ofText s = ⟨.top, loc⟩ := by
  obtain ⟨-, -, p, -, ⟨e, hask, he⟩, rfl⟩ := readDirectory_eq_valid_iff.1 hr
  have hstat := (ask_eq_ok_iff.1 hask).2
  exact ⟨_, e, (h.stat_top_iff hl (dots_not_mem_resolve p)).1 hstat, he, h.ofText_resolve hstat⟩

end FileTree

/-! ### Checked settings -/

namespace Checked

variable {α β : Type}

theorem seq_eq_valid_iff {f : Checked (α → β)} {x : Checked α} {b : β} :
    f.seq x = .valid b ↔ ∃ g a, f = .valid g ∧ x = .valid a ∧ g a = b := by
  cases f <;> cases x <;> simp [seq]

theorem map_eq_valid_iff {f : α → β} {x : Checked α} {b : β} : x.map f = .valid b ↔ ∃ a, x = .valid a ∧ f a = b := by
  cases x <;> simp [map]

theorem inside_eq_valid_iff {x : Checked α} {step : Text} {a : α} : x.inside step = .valid a ↔ x = .valid a := by
  cases x <;> simp [inside]

end Checked

theorem Except.bind_eq_ok {ε α β : Type} {x : Except ε α} {f : α → Except ε β} {b : β}
    (h : x >>= f = .ok b) : ∃ a, x = .ok a ∧ f a = .ok b := by
  cases x with
  | error e => simp [bind, Except.bind] at h
  | ok a => exact ⟨a, rfl, h⟩

variable {r : FieldReaders} {t : FileTree}

theorem Members.directory_eq_valid_iff {members : Members} {key what s : Text} :
    members.directory r t key what = .ok (.valid s) ↔
      ∃ v value, members.get? key = some v ∧ r.text v = .valid value ∧
        readDirectory t what value = .ok (.valid s) := by
  have hinside : ∀ x : Except DirectoryFault (Checked Text),
      x.map (Checked.inside key) = .ok (.valid s) ↔ x = .ok (.valid s) := by
    rintro (fault | c)
    · simp [Except.map]
    · simp [Except.map, Checked.inside_eq_valid_iff]
  unfold Members.directory Members.required
  cases hget : members.get? key with
  | none => simp
  | some v => cases hv : r.text v <;> simp [hv, Checked.inside, hinside]

theorem Members.directory_of_text {members : Members} {key what value : Text}
    (hget : members.get? key = some (.text value)) :
    members.directory r t key what = (readDirectory t what value).map (Checked.inside key) := by
  simp only [Members.directory, Members.required, hget, r.text_text, Checked.inside]

theorem Members.optional_eq_valid_iff {α : Type} {members : Members} {key : Text} {default a : α} {read : Reader α} :
    members.optional key default read = .valid a ↔
      (∃ v, members.get? key = some v ∧ read v = .valid a) ∨ (members.get? key = none ∧ default = a) := by
  unfold Members.optional
  cases members.get? key <;> simp [Checked.inside_eq_valid_iff]

/-- Accepted settings are those whose fields are accepted one by one. -/
theorem InspectorSettings.ofValue_eq_valid_iff {v : Value} {s : InspectorSettings} :
    InspectorSettings.ofValue r t v = .ok (.valid s) ↔
      ∃ members : Members, v = .object members ∧
        members.directory r t "root" "Root" = .ok (.valid s.root) ∧
        members.optional "class_subdir" ("cl" : Text) r.nonEmptyText = .valid s.classSubdir ∧
        members.optional "class_file_prefix" ("C@" : Text) r.text = .valid s.classFileLead ∧
        (members.optional "source_extension" (".cpp" : Text) r.text).map dotted = .valid s.sourceExtension ∧
        (members.optional "header_extension" (".h" : Text) r.text).map dotted = .valid s.headerExtension ∧
        members.optional "debug" false r.boolean = .valid s.debug := by
  constructor
  · intro hs
    unfold InspectorSettings.ofValue at hs
    split at hs
    · simp at hs
    rename_i members hobject
    have hv : v = .object members := by
      cases v <;> simp [Reader.object, Checked.fail] at hobject
      rw [hobject]
    obtain ⟨root, hroot, hchecked⟩ := Except.bind_eq_ok hs
    obtain ⟨_, _, hfive, hdebug, rfl⟩ := Checked.seq_eq_valid_iff.1 (Except.ok.inj hchecked)
    obtain ⟨_, _, hfour, hheader, rfl⟩ := Checked.seq_eq_valid_iff.1 hfive
    obtain ⟨_, _, hthree, hsource, rfl⟩ := Checked.seq_eq_valid_iff.1 hfour
    obtain ⟨_, _, htwo, hlead, rfl⟩ := Checked.seq_eq_valid_iff.1 hthree
    obtain ⟨_, _, hone, hsubdir, rfl⟩ := Checked.seq_eq_valid_iff.1 htwo
    obtain ⟨_, rfl, rfl⟩ := Checked.map_eq_valid_iff.1 hone
    exact ⟨members, hv, hroot, hsubdir, hlead, hsource, hheader, hdebug⟩
  · rintro ⟨members, rfl, hroot, hsubdir, hlead, hsource, hheader, hdebug⟩
    simp only [InspectorSettings.ofValue, Reader.object, hroot, hsubdir, hlead, hsource, hheader, hdebug]
    rfl

theorem InspectorSettings.classSubdir_ne_nil {v : Value} {s : InspectorSettings}
    (hs : InspectorSettings.ofValue r t v = .ok (.valid s)) : s.classSubdir ≠ [] := by
  obtain ⟨members, -, -, hsubdir, -⟩ := InspectorSettings.ofValue_eq_valid_iff.1 hs
  rcases Members.optional_eq_valid_iff.1 hsubdir with ⟨v, -, hv⟩ | ⟨-, hdefault⟩
  · exact r.ne_nil_of_nonEmptyText hv
  · rw [← hdefault]
    decide

theorem InspectorSettings.root_of_ofValue {v : Value} {s : InspectorSettings}
    (hs : InspectorSettings.ofValue r t v = .ok (.valid s)) :
    ∃ value, readDirectory t "Root" value = .ok (.valid s.root) := by
  obtain ⟨members, -, hroot, -⟩ := InspectorSettings.ofValue_eq_valid_iff.1 hs
  obtain ⟨-, value, -, -, hvalue⟩ := Members.directory_eq_valid_iff.1 hroot
  exact ⟨value, hvalue⟩

theorem InspectorSettings.rootPath_of_ofValue (h : t.WellFormed) (hl : t.LinkFree) {v : Value}
    {s : InspectorSettings} (hs : InspectorSettings.ofValue r t v = .ok (.valid s)) :
    ∃ loc e, t.get? loc = some e ∧ e.isDirectory = true ∧ s.rootPath = ⟨.top, loc⟩ := by
  obtain ⟨value, hvalue⟩ := InspectorSettings.root_of_ofValue hs
  exact h.readDirectory_valid hl hvalue

theorem InspectorSettings.isDirectory_rootPath (h : t.WellFormed) {v : Value} {s : InspectorSettings}
    (hs : InspectorSettings.ofValue r t v = .ok (.valid s)) :
    ∃ names, s.rootPath = ⟨.top, names⟩ ∧ t.isDirectory s.rootPath = true := by
  obtain ⟨value, hvalue⟩ := InspectorSettings.root_of_ofValue hs
  obtain ⟨names, hpath, hdir⟩ := h.isDirectory_of_readDirectory hvalue
  have hpath : s.rootPath = ⟨.top, names⟩ := hpath
  exact ⟨names, hpath, by rw [hpath]; exact hdir⟩

theorem ComparisonSettings.ofValue_eq_valid_iff {v : Value} {s : ComparisonSettings} :
    ComparisonSettings.ofValue r t v = .ok (.valid s) ↔
      ∃ members : Members, v = .object members ∧
        members.directory r t "master_root" "Master" = .ok (.valid s.masterRoot) ∧
        members.directory r t "cmp_root" "Compared" = .ok (.valid s.comparedRoot) ∧
        members.directory r t "diff_root" "Diff" = .ok (.valid s.diffRoot) ∧
        members.optional "skip_comments" false r.boolean = .valid s.skipComments ∧
        members.optional "header_bytes" 64 r.positive = .valid s.headerBytes ∧
        members.optional "comment_free_bytes" 30 r.positive = .valid s.commentFreeBytes := by
  constructor
  · intro hs
    unfold ComparisonSettings.ofValue at hs
    split at hs
    · simp at hs
    rename_i members hobject
    have hv : v = .object members := by
      cases v <;> simp [Reader.object, Checked.fail] at hobject
      rw [hobject]
    obtain ⟨master, hmaster, hrest⟩ := Except.bind_eq_ok hs
    obtain ⟨compared, hcompared, hrest⟩ := Except.bind_eq_ok hrest
    obtain ⟨diff, hdiff, hchecked⟩ := Except.bind_eq_ok hrest
    obtain ⟨_, _, hfive, hfree, rfl⟩ := Checked.seq_eq_valid_iff.1 (Except.ok.inj hchecked)
    obtain ⟨_, _, hfour, hheader, rfl⟩ := Checked.seq_eq_valid_iff.1 hfive
    obtain ⟨_, _, hthree, hskip, rfl⟩ := Checked.seq_eq_valid_iff.1 hfour
    obtain ⟨_, d, htwo, rfl, rfl⟩ := Checked.seq_eq_valid_iff.1 hthree
    obtain ⟨_, c, hone, rfl, rfl⟩ := Checked.seq_eq_valid_iff.1 htwo
    obtain ⟨m, rfl, rfl⟩ := Checked.map_eq_valid_iff.1 hone
    exact ⟨members, hv, hmaster, hcompared, hdiff, hskip, hheader, hfree⟩
  · rintro ⟨members, rfl, hmaster, hcompared, hdiff, hskip, hheader, hfree⟩
    simp only [ComparisonSettings.ofValue, Reader.object, hmaster, hcompared, hdiff, hskip, hheader, hfree]
    rfl

theorem ComparisonSettings.roots_of_ofValue {v : Value} {s : ComparisonSettings}
    (hs : ComparisonSettings.ofValue r t v = .ok (.valid s)) :
    (∃ value, readDirectory t "Master" value = .ok (.valid s.masterRoot)) ∧
    (∃ value, readDirectory t "Compared" value = .ok (.valid s.comparedRoot)) ∧
    ∃ value, readDirectory t "Diff" value = .ok (.valid s.diffRoot) := by
  obtain ⟨members, -, hmaster, hcompared, hdiff, -⟩ := ComparisonSettings.ofValue_eq_valid_iff.1 hs
  have hvalue : ∀ {key what text : Text}, members.directory r t key what = .ok (.valid text) →
      ∃ value, readDirectory t what value = .ok (.valid text) := by
    intro key what text h
    obtain ⟨-, value, -, -, hr⟩ := Members.directory_eq_valid_iff.1 h
    exact ⟨value, hr⟩
  exact ⟨hvalue hmaster, hvalue hcompared, hvalue hdiff⟩

theorem ComparisonSettings.headerBytes_pos_of_ofValue {v : Value} {s : ComparisonSettings}
    (hs : ComparisonSettings.ofValue r t v = .ok (.valid s)) : 0 < s.headerBytes := by
  obtain ⟨members, -, -, -, -, -, hheader, -⟩ := ComparisonSettings.ofValue_eq_valid_iff.1 hs
  rcases Members.optional_eq_valid_iff.1 hheader with ⟨v, -, hv⟩ | ⟨-, hdefault⟩
  · exact r.pos_of_positive hv
  · omega

theorem ComparisonSettings.isDirectory_of_ofValue (h : t.WellFormed) {v : Value} {s : ComparisonSettings}
    (hs : ComparisonSettings.ofValue r t v = .ok (.valid s)) :
    t.isDirectory s.masterPath = true ∧ t.isDirectory s.comparedPath = true ∧ t.isDirectory s.diffPath = true := by
  have hdir : ∀ {what value text : Text}, readDirectory t what value = .ok (.valid text) →
      t.isDirectory (Path.ofText text) = true := by
    intro what value text hr
    obtain ⟨names, hpath, hdir⟩ := h.isDirectory_of_readDirectory hr
    rw [hpath]
    exact hdir
  obtain ⟨⟨_, hm⟩, ⟨_, hc⟩, ⟨_, hd⟩⟩ := ComparisonSettings.roots_of_ofValue hs
  exact ⟨hdir hm, hdir hc, hdir hd⟩

theorem ComparisonSettings.paths_of_ofValue (h : t.WellFormed) (hl : t.LinkFree) {v : Value}
    {s : ComparisonSettings} (hs : ComparisonSettings.ofValue r t v = .ok (.valid s)) :
    (∃ loc e, t.get? loc = some e ∧ e.isDirectory = true ∧ s.masterPath = ⟨.top, loc⟩) ∧
    (∃ loc e, t.get? loc = some e ∧ e.isDirectory = true ∧ s.comparedPath = ⟨.top, loc⟩) ∧
    ∃ loc e, t.get? loc = some e ∧ e.isDirectory = true ∧ s.diffPath = ⟨.top, loc⟩ := by
  obtain ⟨⟨_, hm⟩, ⟨_, hc⟩, ⟨_, hd⟩⟩ := ComparisonSettings.roots_of_ofValue hs
  exact ⟨h.readDirectory_valid hl hm, h.readDirectory_valid hl hc, h.readDirectory_valid hl hd⟩

theorem ComparisonSettings.anchors_of_ofValue {v : Value} {s : ComparisonSettings}
    (hs : ComparisonSettings.ofValue r t v = .ok (.valid s)) :
    s.masterPath.anchor ≠ .relative ∧ s.comparedPath.anchor ≠ .relative ∧ s.diffPath.anchor ≠ .relative := by
  have hanchor : ∀ {what value text : Text}, readDirectory t what value = .ok (.valid text) →
      (Path.ofText text).anchor ≠ .relative := by
    intro what value text hr
    obtain ⟨-, -, p, -, -, hp⟩ := FileTree.readDirectory_eq_valid_iff.1 hr
    rw [hp]
    exact Path.anchor_ofText_toText_top _
  obtain ⟨⟨_, hm⟩, ⟨_, hc⟩, ⟨_, hd⟩⟩ := ComparisonSettings.roots_of_ofValue hs
  exact ⟨hanchor hm, hanchor hc, hanchor hd⟩

theorem ComparisonSettings.diffPath_anchor_of_ofValue {v : Value} {s : ComparisonSettings}
    (hs : ComparisonSettings.ofValue r t v = .ok (.valid s)) : s.diffPath.anchor ≠ .relative :=
  (anchors_of_ofValue hs).2.2

end GenScope
