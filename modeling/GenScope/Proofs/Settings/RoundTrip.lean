import GenScope.Proofs.FileTree.Resolve
import GenScope.Proofs.Settings.Directory
import GenScope.Proofs.Text.Fragment

/-!
# Reading settings back

Accepted settings are written to an object under the keys they are read from. Reading the object gives
every field but the root back (`ofValue_toValue`). The root is trimmed and resolved once more, so it comes
back if and only if the path without the white space at its end resolves to it
(`readDirectory_again_iff`). A name with white space at its end is therefore lost, and so is a root with
a link in it, which stays there if the path that was given leads through a loop of links. Every other root
comes back (`read_back_iff`).
-/

namespace GenScope

/-! ### The root -/

namespace FileTree

variable {t : FileTree} {what what' value s : Text} {p : Path}

/-- No name of an entry holds a null character. -/
def NulFree (t : FileTree) : Prop := ∀ {loc e}, t.get? loc = some e → ∀ name ∈ loc, '\x00' ∉ name

theorem NulFree.of_entries (h : ∀ x ∈ t.entries, ∀ name ∈ x.1, '\x00' ∉ name) : t.NulFree := by
  intro loc e hget
  by_cases hne : loc = []
  · simp [hne]
  · exact h _ (mem_of_get? hne hget)

theorem toText_resolve (p : Path) : (t.resolve p).toText = '/' :: Text.join "/" (t.resolve p).names :=
  Path.toText_top _

theorem NulFree.not_mem_toText_resolve (hnul : t.NulFree) {e : Entry} (hstat : t.stat (t.resolve p) = .ok e) :
    '\x00' ∉ (t.resolve p).toText := by
  obtain ⟨loc, hf, -⟩ := follow_of_stat hstat
  rw [toText_resolve, List.mem_cons, not_or]
  refine ⟨by decide, Text.not_mem_join (by decide) fun name hname => ?_⟩
  exact names_of_follow hnul hf name hname fun he => dots_not_mem_resolve p (he ▸ hname)

theorem trim_toText_resolve (p : Path) : ∃ rest, Text.trim (t.resolve p).toText = '/' :: rest := by
  rw [toText_resolve]
  exact Text.trim_cons_of_not_blank (by decide) _

/-- An accepted directory is accepted again as it is if and only if trimming leaves a path that resolves
to it. -/
theorem WellFormed.readDirectory_again_iff (h : t.WellFormed) (hnul : t.NulFree)
    (hr : readDirectory t what value = .ok (.valid s)) :
    readDirectory t what' s = .ok (.valid s) ↔ t.resolve (Path.ofText (Text.trim s)) = Path.ofText s := by
  obtain ⟨-, -, p, -, ⟨e, hask, he⟩, rfl⟩ := readDirectory_eq_valid_iff.1 hr
  have hstat := (ask_eq_ok_iff.1 hask).2
  rw [h.ofText_resolve hstat]
  obtain ⟨rest, htrim⟩ := trim_toText_resolve (t := t) p
  have hhome : t.expandHome (Path.ofText (Text.trim (t.resolve p).toText)) =
      .ok (Path.ofText (Text.trim (t.resolve p).toText)) := by
    rw [htrim]
    exact expandHome_of_anchor (Path.anchor_ofText_slash rest)
  rw [readDirectory_eq_valid_iff]
  constructor
  · rintro ⟨-, -, q, hq, ⟨e', hask', -⟩, htext⟩
    have hstat' := (ask_eq_ok_iff.1 hask').2
    obtain rfl := Except.ok.inj (hhome.symm.trans hq)
    -- both are read back from the same text
    rw [← h.ofText_resolve hstat', ← htext, h.ofText_resolve hstat]
  · intro hself
    refine ⟨by simp [htrim], fun hm => ?_, _, hhome, ⟨e, by rw [hself, hask], he⟩, by rw [hself]⟩
    exact hnul.not_mem_toText_resolve hstat (Text.mem_of_mem_trim hm)

theorem WellFormed.readDirectory_again_iff_of_end (h : t.WellFormed) (hnul : t.NulFree)
    (hr : readDirectory t what value = .ok (.valid s)) (hend : ∀ c, s.getLast? = some c → Text.isBlank c = false) :
    readDirectory t what' s = .ok (.valid s) ↔
      ∀ dir, dir <+: (Path.ofText s).names → ∀ target, t.get? dir ≠ some (.link target) := by
  rw [h.readDirectory_again_iff hnul hr]
  obtain ⟨-, -, p, -, ⟨e, hask, he⟩, rfl⟩ := readDirectory_eq_valid_iff.1 hr
  have hstat := (ask_eq_ok_iff.1 hask).2
  have htrim : Text.trim (t.resolve p).toText = (t.resolve p).toText := by
    refine Text.trim_eq_self_iff.2 ⟨fun c hc => ?_, hend⟩
    rw [toText_resolve] at hc
    obtain rfl : '/' = c := by simpa using hc
    decide
  rw [htrim, h.ofText_resolve hstat]
  exact h.resolve_top_eq_self_iff (isDirectory_iff.2 ⟨e, hstat, he⟩) (dots_not_mem_resolve p)

theorem WellFormed.not_link_of_isDirectory (h : t.WellFormed) (hdir : t.isDirectory p = true) {dir : Location}
    (hfront : dir <+: (t.resolve p).names) (target : Text) : t.get? dir ≠ some (.link target) := by
  obtain ⟨e, hstat, he⟩ := isDirectory_iff.1 hdir
  obtain ⟨loc, hf, hget⟩ := follow_of_stat hstat
  rw [h.resolve_of_follow hf hget] at hfront
  exact h.not_link_of_prefix hget he hfront

end FileTree

/-! ### The other fields -/

namespace InspectorSettings

variable {r : FieldReaders} {t u : FileTree} {v : Value} {s : InspectorSettings}

theorem dotted_of_startsWith {extension : Text} (h : extension.startsWith "." = true) : dotted extension = extension :=
  if_pos h

theorem dotted_dotted (extension : Text) : dotted (dotted extension) = dotted extension := by
  by_cases h : extension.startsWith "." = true
  · rw [dotted_of_startsWith h, dotted_of_startsWith h]
  · have hdotted : dotted extension = '.' :: extension := if_neg h
    rw [hdotted]
    exact dotted_of_startsWith rfl

/-- Reading accepted settings back reads their root again and keeps the other fields. -/
theorem ofValue_toValue (hs : ofValue r t v = .ok (.valid s)) :
    ofValue r u s.toValue =
      (readDirectory u "Root" s.root).map fun root => (root.inside "root").map fun root => { s with root } := by
  obtain ⟨members, -, -, -, -, hsource, hheader, -⟩ := ofValue_eq_valid_iff.1 hs
  have hsubdir : r.nonEmptyText (.text s.classSubdir) = .valid s.classSubdir :=
    r.nonEmptyText_text _ (classSubdir_ne_nil hs)
  have hsource : dotted s.sourceExtension = s.sourceExtension := by
    obtain ⟨extension, -, hdotted⟩ := Checked.map_eq_valid_iff.1 hsource
    rw [← hdotted, dotted_dotted]
  have hheader : dotted s.headerExtension = s.headerExtension := by
    obtain ⟨extension, -, hdotted⟩ := Checked.map_eq_valid_iff.1 hheader
    rw [← hdotted, dotted_dotted]
  show (Members.directory _ r u "root" "Root").bind (fun root =>
    .ok ((((((root.map mk).seq ((r.nonEmptyText (.text s.classSubdir)).inside "class_subdir")).seq
      ((r.text (.text s.classFileLead)).inside "class_file_prefix")).seq
      (((r.text (.text s.sourceExtension)).inside "source_extension").map dotted)).seq
      (((r.text (.text s.headerExtension)).inside "header_extension").map dotted)).seq
      ((r.boolean (.boolean s.debug)).inside "debug"))) = _
  rw [Members.directory_of_text rfl, hsubdir, r.text_text, r.text_text, r.text_text,
    r.boolean_boolean]
  simp only [Checked.inside, Checked.map, hsource, hheader]
  rcases readDirectory u "Root" s.root with f | (root | issues)
  · rfl
  · rfl
  · simp [Except.map, Except.bind, Checked.inside, Checked.seq, Checked.issues]

theorem ofValue_toValue_eq_iff (hs : ofValue r t v = .ok (.valid s)) :
    ofValue r u s.toValue = .ok (.valid s) ↔ readDirectory u "Root" s.root = .ok (.valid s.root) := by
  rw [ofValue_toValue hs]
  rcases readDirectory u "Root" s.root with f | (root | issues)
  · exact iff_of_false (by rintro ⟨⟩) (by rintro ⟨⟩)
  · simp only [Except.map, Checked.inside, Checked.map, Except.ok.injEq, Checked.valid.injEq]
    constructor
    · intro h
      rw [← h]
    · rintro rfl
      rfl
  · exact iff_of_false (by rintro ⟨⟩) (by rintro ⟨⟩)

/-- Accepted settings are read back from the object they are written to if and only if their root without
the white space at its end resolves to itself. Without such white space that is so if and only if no link
lies on the way to the root, as is the case if the root was given by a path to a directory. -/
theorem read_back_iff (h : t.WellFormed) (hnul : t.NulFree) (hs : ofValue r t v = .ok (.valid s)) :
    (ofValue r t s.toValue = .ok (.valid s) ↔ t.resolve (Path.ofText (Text.trim s.root)) = s.rootPath) ∧
    ((∀ c, s.root.getLast? = some c → Text.isBlank c = false) →
      (ofValue r t s.toValue = .ok (.valid s) ↔
        ∀ dir, dir <+: s.rootPath.names → ∀ target, t.get? dir ≠ some (.link target)) ∧
      ∀ members given p, v = .object members → Members.get? members "root" = some (.text given) →
        t.expandHome (Path.ofText (Text.trim given)) = .ok p → t.isDirectory p = true →
        ofValue r t s.toValue = .ok (.valid s)) := by
  obtain ⟨members, rfl, hmember, -⟩ := ofValue_eq_valid_iff.1 hs
  obtain ⟨v, given, hgiven, htext, hroot⟩ := Members.directory_eq_valid_iff.1 hmember
  rw [ofValue_toValue_eq_iff hs]
  refine ⟨h.readDirectory_again_iff hnul hroot, fun hend => ?_⟩
  have hagain : readDirectory t "Root" s.root = .ok (.valid s.root) ↔
      ∀ dir, dir <+: s.rootPath.names → ∀ target, t.get? dir ≠ some (.link target) :=
    h.readDirectory_again_iff_of_end hnul hroot hend
  refine ⟨hagain, ?_⟩
  rintro members given' p hobject hgiven' hhome hdir
  obtain rfl := Value.object.inj hobject
  obtain rfl := Option.some.inj (hgiven.symm.trans hgiven')
  obtain rfl := Checked.valid.inj ((r.text_text given').symm.trans htext)
  obtain ⟨-, -, q, hq, ⟨e, hask, -⟩, hpath⟩ := FileTree.readDirectory_eq_valid_iff.1 hroot
  obtain rfl := Except.ok.inj (hhome.symm.trans hq)
  refine hagain.2 fun dir hfront target => ?_
  rw [rootPath, hpath, h.ofText_resolve (FileTree.ask_eq_ok_iff.1 hask).2] at hfront
  exact h.not_link_of_isDirectory hdir hfront target

/-- A root that was given through a link is read back without it. -/
theorem read_back_iff_link :
    let t : FileTree := ⟨[(["link"], .link "out"), (["out"], .directory)], by decide +kernel, [], [], []⟩
    let v : Value := .object [(some "root", .text " /link/. ")]
    let s : InspectorSettings := ⟨"/out", "cl", "C@", ".cpp", ".h", false⟩
    (t.WellFormed ∧ t.NulFree ∧ ofValue .lax t v = .ok (.valid s)) ∧ ofValue .lax t s.toValue = .ok (.valid s) := by
  intro t v s
  have hwf : t.WellFormed := .of_entries (by decide +kernel)
  have hnul : t.NulFree := FileTree.NulFree.of_entries (by decide +kernel)
  have hs : ofValue .lax t v = .ok (.valid s) := by decide +kernel
  have hend : ∀ c, s.root.getLast? = some c → Text.isBlank c = false := by
    rintro c ⟨⟩
    decide
  have hhome : t.expandHome (Path.ofText (Text.trim " /link/. ")) = .ok ⟨.top, ["link"]⟩ := by decide +kernel
  have hback := ((read_back_iff hwf hnul hs).2 hend).2 _ _ _ rfl rfl hhome (by decide +kernel)
  exact ⟨⟨hwf, hnul, hs⟩, hback⟩

/-- A loop of links keeps the link behind it in the root, which is resolved when the root is read back. -/
example :
    let t : FileTree := ⟨[(["link"], .link "out"), (["loop"], .link "loop"), (["out"], .directory)],
      by decide +kernel, [], [], []⟩
    let s : InspectorSettings := ⟨"/link", "cl", "C@", ".cpp", ".h", false⟩
    ofValue .lax t (.object [(some "root", .text "/loop/../link")]) = .ok (.valid s) ∧
    ofValue .lax t s.toValue = .ok (.valid { s with root := "/out" }) := by decide +kernel

/-- White space at the end of the root's name is lost when the root is read back. -/
theorem not_read_back_blank_end :
    let t : FileTree := ⟨[(["out "], .directory)], by decide +kernel, [], [], []⟩
    let s : InspectorSettings := ⟨"/out ", "cl", "C@", ".cpp", ".h", false⟩
    ofValue .lax t (.object [(some "root", .text "/out /")]) = .ok (.valid s) ∧
    ofValue .lax t s.toValue = .ok (.invalid [⟨["root"], .rejected "Root directory does not exist: /out"⟩]) := by
  decide +kernel

end InspectorSettings

end GenScope
