import GenScope.Proofs.Search.Offered

/-!
# The order of words

Whether the words of a query stand in a path does not depend on their order. The scan before that is
seeded with one of them, the first of the longest ones, and looks for it in file names alone. So the
order tells which of several longest words has to stand in the name, and two orders give the same list
exactly if every file with all the words is selected by both seeds or by neither
(`reordered_words_iff`), as it is if the seeds are the same.
-/

namespace GenScope

theorem filter_eq_filter_iff {α : Type} {l : List α} {c c' : α → Prop} [DecidablePred c] [DecidablePred c'] :
    (l.filter fun a => c a) = (l.filter fun a => c' a) ↔ ∀ a ∈ l, c a ↔ c' a := by
  constructor
  · intro h a ha
    have hmem : a ∈ (l.filter fun a => c a) ↔ a ∈ (l.filter fun a => c' a) := by rw [h]
    simpa [ha] using hmem
  · intro h
    exact List.filter_congr fun a ha => by simpa using h a ha

namespace SearchQuery

variable {q q' : SearchQuery} {w lead name : Text}

/-- If there is one longest word only, the order of the words does not matter to the seed. -/
theorem longestToken_eq_of_perm (hperm : q.tokens.Perm q'.tokens) (hw : IsFirstLongest w q.tokens)
    (honly : ∀ v ∈ q.tokens, v.length = w.length → v = w) : q.longestToken = q'.longestToken := by
  have hne : q'.tokens ≠ [] := by
    intro hnil
    have hmem := hperm.mem_iff.1 hw.mem
    simp [hnil] at hmem
  obtain ⟨w', hw'⟩ := exists_isFirstLongest hne
  have hmem : w' ∈ q.tokens := hperm.mem_iff.2 hw'.mem
  have hle : w'.length ≤ w.length := hw.length_le w' hmem
  have hge : w.length ≤ w'.length := hw'.length_le w (hperm.mem_iff.1 hw.mem)
  obtain rfl : w' = w := honly w' hmem (Nat.le_antisymm hle hge)
  rw [longestToken, longestToken, longest_eq_some_iff.2 hw, longest_eq_some_iff.2 hw']

theorem seeks_congr (hq : q.isFullyQualified = false) (hq' : q'.isFullyQualified = false)
    (hseed : q.longestToken = q'.longestToken) : q.Seeks lead name ↔ q'.Seeks lead name := by
  rw [Seeks, Seeks, path?_eq_none_iff.2 hq, path?_eq_none_iff.2 hq']
  refine exists_congr fun w => and_congr_left' ?_
  rw [← longest_eq_some_iff, ← longest_eq_some_iff]
  exact (congrArg (· = some w) hseed).to_iff

end SearchQuery

namespace Locate

variable {r : FieldReaders} {t : FileTree} {v : Value} {s : InspectorSettings} {q q' : SearchQuery} {names : List Text}

/-- The file under these names below the root is one that the scan selects for functions: its name is
one that is looked for, and it is a source, or a header without a class mark and without a source
beside it that is looked for too. -/
structure Selects (t : FileTree) (s : InspectorSettings) (q : SearchQuery) (names : List Text) : Prop where
  seeks : q.Seeks [] (s.rootPath.below names).name
  kind : s.sourceExtension <:+ (s.rootPath.below names).name ∨
    s.headerExtension <:+ (s.rootPath.below names).name ∧
      (∀ src, t.Finds s.rootPath [] q src →
        ¬ IsBeside s.headerExtension s.sourceExtension (s.rootPath.below names) src) ∧
      ¬ HasClassMark s names

/-- The file has all the words in its path and passes for a definition. -/
structure AnswersWords (t : FileTree) (s : InspectorSettings) (words names : List Text) : Prop where
  listed : s.rootPath.below names ∈ t.filesBelow s.rootPath
  hasWords : ∀ w ∈ words, HasWord (Text.lower (Text.join "/" names)) w
  definition : PassesForDefinition t (s.rootPath.below names)

/-- The header below the class directory has all the words in its path. -/
structure IsHeaderOfWords (t : FileTree) (s : InspectorSettings) (words names : List Text) : Prop where
  listed : s.classRoot.below names ∈ t.filesBelow s.classRoot
  hasWords : ∀ w ∈ words, HasWord (Text.lower (Text.join "/" names)) w
  kind : s.headerExtension <:+ (s.classRoot.below names).name

theorem isFunctionCandidate_iff_selects {words : List Text} :
    IsFunctionCandidate t s (t.Finds s.rootPath [] q) words names ↔
      AnswersWords t s words names ∧ Selects t s q names := by
  constructor
  · intro h
    exact ⟨⟨h.isFound.1, h.hasWords, h.definition⟩, h.isFound.2, h.kind⟩
  · rintro ⟨h, hsel⟩
    exact ⟨⟨h.listed, hsel.seeks⟩, h.hasWords, hsel.kind, h.definition⟩

theorem isClassCandidate_iff_seeks {words : List Text} :
    IsClassCandidate s (t.Finds s.classRoot s.classFileLead q) words names ↔
      IsHeaderOfWords t s words names ∧ q.Seeks s.classFileLead (s.classRoot.below names).name := by
  constructor
  · intro h
    exact ⟨⟨h.isFound.1, h.hasWords, h.kind⟩, h.isFound.2⟩
  · rintro ⟨h, hseeks⟩
    exact ⟨⟨h.listed, hseeks⟩, h.hasWords, h.kind⟩

theorem Selects.congr (h : Selects t s q names) (hq : q.isFullyQualified = false)
    (hq' : q'.isFullyQualified = false) (hseed : q.longestToken = q'.longestToken) : Selects t s q' names := by
  have hseeks : ∀ lead name, q.Seeks lead name ↔ q'.Seeks lead name := fun _ _ =>
    SearchQuery.seeks_congr hq hq' hseed
  refine ⟨(hseeks _ _).1 h.seeks, h.kind.imp_right ?_⟩
  rintro ⟨hheader, hsources, hmark⟩
  exact ⟨hheader, fun src hsrc => hsources src ⟨hsrc.1, (hseeks _ _).2 hsrc.2⟩, hmark⟩

theorem filesBelow_filter_eq_iff (hwf : t.WellFormed) {root : Path} {c c' : List Text → Prop}
    [DecidablePred fun p => ∃ names, p = root.below names ∧ c names]
    [DecidablePred fun p => ∃ names, p = root.below names ∧ c' names]
    (hc : ∀ names, c names → root.below names ∈ t.filesBelow root)
    (hc' : ∀ names, c' names → root.below names ∈ t.filesBelow root) :
    ((t.filesBelow root).filter fun p => ∃ names, p = root.below names ∧ c names) =
      ((t.filesBelow root).filter fun p => ∃ names, p = root.below names ∧ c' names) ↔
      ∀ names, c names ↔ c' names := by
  have hbelow : ∀ (d : List Text → Prop) (names : List Text),
      (∃ names', root.below names = root.below names' ∧ d names') ↔ d names := by
    intro d names
    constructor
    · rintro ⟨names', heq, hd⟩
      rwa [Path.below_inj.1 heq]
    · exact fun hd => ⟨names, rfl, hd⟩
  rw [filter_eq_filter_iff]
  constructor
  · intro h names
    by_cases hmem : root.below names ∈ t.filesBelow root
    · have := h _ hmem
      rwa [hbelow, hbelow] at this
    · exact iff_of_false (fun hn => hmem (hc names hn)) fun hn => hmem (hc' names hn)
  · intro h p hp
    obtain ⟨names, -, rfl, -⟩ := hwf.exists_below_of_mem hp
    rw [hbelow, hbelow]
    exact h names

theorem functions_eq_functions_iff (hwf : t.WellFormed)
    (hs : InspectorSettings.ofValue r t v = .ok (.valid s)) (hq : q.isFullyQualified = false)
    (hq' : q'.isFullyQualified = false) (hperm : q.tokens.Perm q'.tokens) :
    (functions t s q).value.result = (functions t s q').value.result ↔
      ∀ names, AnswersWords t s q.tokens names → (Selects t s q names ↔ Selects t s q' names) := by
  classical
  have hwords : ∀ names, AnswersWords t s q'.tokens names ↔ AnswersWords t s q.tokens names := fun names =>
    ⟨fun h => ⟨h.listed, fun w hw => h.hasWords w (hperm.mem_iff.1 hw), h.definition⟩,
      fun h => ⟨h.listed, fun w hw => h.hasWords w (hperm.mem_iff.2 hw), h.definition⟩⟩
  rw [functions_eq_filter hwf hs q, functions_eq_filter hwf hs q', Except.ok.injEq,
    filesBelow_filter_eq_iff hwf (fun _ h => h.isFound.1) (fun _ h => h.isFound.1)]
  refine forall_congr' fun names => ?_
  rw [isFunctionCandidate_iff_selects, isFunctionCandidate_iff_selects,
    SearchQuery.words_of_path?_none (SearchQuery.path?_eq_none_iff.2 hq),
    SearchQuery.words_of_path?_none (SearchQuery.path?_eq_none_iff.2 hq'), hwords]
  exact and_congr_right_iff

theorem classes_eq_classes_iff_of_isDirectory (hwf : t.WellFormed) (hdir : t.isDirectory s.classRoot = true)
    (hq : q.isFullyQualified = false) (hq' : q'.isFullyQualified = false) (hperm : q.tokens.Perm q'.tokens) :
    (classes t s q).value.result = (classes t s q').value.result ↔
      ∀ names, IsHeaderOfWords t s q.tokens names →
        (q.Seeks s.classFileLead (s.classRoot.below names).name ↔
          q'.Seeks s.classFileLead (s.classRoot.below names).name) := by
  classical
  have hwords : ∀ names, IsHeaderOfWords t s q'.tokens names ↔ IsHeaderOfWords t s q.tokens names := fun names =>
    ⟨fun h => ⟨h.listed, fun w hw => h.hasWords w (hperm.mem_iff.1 hw), h.kind⟩,
      fun h => ⟨h.listed, fun w hw => h.hasWords w (hperm.mem_iff.2 hw), h.kind⟩⟩
  rw [classes_eq_filter hwf hdir q, classes_eq_filter hwf hdir q', Except.ok.injEq,
    filesBelow_filter_eq_iff hwf (fun _ h => h.isFound.1) (fun _ h => h.isFound.1)]
  refine forall_congr' fun names => ?_
  rw [isClassCandidate_iff_seeks, isClassCandidate_iff_seeks,
    SearchQuery.words_of_path?_none (SearchQuery.path?_eq_none_iff.2 hq),
    SearchQuery.words_of_path?_none (SearchQuery.path?_eq_none_iff.2 hq'), hwords]
  exact and_congr_right_iff

theorem classes_congr_of_not_isDirectory (hdir : t.isDirectory s.classRoot = false)
    (hq : q.isFullyQualified = false) (hq' : q'.isFullyQualified = false) (hperm : q.tokens.Perm q'.tokens) :
    (classes t s q).value.result = (classes t s q').value.result := by
  have hplan : ∀ r : SearchQuery, r.isFullyQualified = false →
      (plan s.classFileLead r = none ↔ r.tokens = []) := by
    intro r hr
    rw [plan, SearchQuery.path?_eq_none_iff.2 hr, Option.map_eq_none_iff, SearchQuery.longestToken]
    cases r.tokens <;> simp [SearchQuery.longest]
  obtain ⟨e, he⟩ := classes_of_not_isDirectory hdir
  by_cases hnil : q.tokens = []
  · have hnil' : q'.tokens = [] := by simpa [hnil] using hperm.symm
    rw [classes_of_plan_none ((hplan q hq).2 hnil), classes_of_plan_none ((hplan q' hq').2 hnil')]
  · have hnil' : q'.tokens ≠ [] := by
      intro h
      exact hnil (by simpa [h] using hperm)
    rw [he q (mt (hplan q hq).1 hnil), he q' (mt (hplan q' hq').1 hnil')]

theorem classes_eq_classes_iff (hwf : t.WellFormed) (hq : q.isFullyQualified = false)
    (hq' : q'.isFullyQualified = false) (hperm : q.tokens.Perm q'.tokens) :
    (classes t s q).value.result = (classes t s q').value.result ↔
      t.isDirectory s.classRoot = false ∨ ∀ names, IsHeaderOfWords t s q.tokens names →
        (q.Seeks s.classFileLead (s.classRoot.below names).name ↔
          q'.Seeks s.classFileLead (s.classRoot.below names).name) := by
  by_cases hdir : t.isDirectory s.classRoot = true
  · rw [classes_eq_classes_iff_of_isDirectory hwf hdir hq hq' hperm]
    simp [hdir]
  · rw [Bool.not_eq_true] at hdir
    exact iff_of_true (classes_congr_of_not_isDirectory hdir hq hq' hperm) (.inl hdir)

/-- Two queries with the same words give the same lists if they have the same seed. In general they
do so exactly if every file with all the words in its path is selected by both scans or by neither;
without a class directory both searches for classes end alike. -/
theorem reordered_words_iff (hwf : t.WellFormed) (hs : InspectorSettings.ofValue r t v = .ok (.valid s))
    (hq : q.isFullyQualified = false) (hq' : q'.isFullyQualified = false) (hperm : q.tokens.Perm q'.tokens) :
    (q.longestToken = q'.longestToken →
      (functions t s q).value.result = (functions t s q').value.result ∧
      (classes t s q).value.result = (classes t s q').value.result) ∧
    ((functions t s q).value.result = (functions t s q').value.result ↔
      ∀ names, AnswersWords t s q.tokens names → (Selects t s q names ↔ Selects t s q' names)) ∧
    ((classes t s q).value.result = (classes t s q').value.result ↔
      t.isDirectory s.classRoot = false ∨ ∀ names, IsHeaderOfWords t s q.tokens names →
        (q.Seeks s.classFileLead (s.classRoot.below names).name ↔
          q'.Seeks s.classFileLead (s.classRoot.below names).name)) := by
  have hfunctions := functions_eq_functions_iff hwf hs hq hq' hperm
  have hclasses := classes_eq_classes_iff (s := s) hwf hq hq' hperm
  refine ⟨fun hseed => ⟨hfunctions.2 fun names _ => ?_, hclasses.2 (.inr fun names _ => ?_)⟩, hfunctions, hclasses⟩
  · exact ⟨fun h => h.congr hq hq' hseed, fun h => h.congr hq' hq hseed.symm⟩
  · exact SearchQuery.seeks_congr hq hq' hseed

/-- The longer of two words seeds both scans, whatever stands first. -/
theorem reordered_words_bars :
    let t : FileTree := ⟨[(["r"], .directory), (["r", "cl"], .directory), (["r", "cl", "C@Foo@Bars.h"], .file []),
      (["r", "foo"], .directory), (["r", "foo", "bars.cpp"], .file (Utf8.encode "int f$a()")),
      (["r", "foo.cpp"], .file (Utf8.encode "int f$a()"))], by decide +kernel, [], [], []⟩
    let s : InspectorSettings := ⟨"/r", "cl", "C@", ".cpp", ".h", false⟩
    let q := SearchQuery.ofText "foo Bars"
    let q' := SearchQuery.ofText "bars::foo"
    (t.WellFormed ∧ InspectorSettings.ofValue .lax t (.object [(some ("root" : Text), .text "/r")]) = .ok (.valid s) ∧
      q.isFullyQualified = false ∧ q'.isFullyQualified = false ∧ q.tokens.Perm q'.tokens ∧
      q.longestToken = q'.longestToken) ∧
    (functions t s q).value.result = .ok [.ofText "/r/foo/bars.cpp"] ∧
    (functions t s q').value.result = .ok [.ofText "/r/foo/bars.cpp"] ∧
    (classes t s q).value.result = .ok [.ofText "/r/cl/C@Foo@Bars.h"] ∧
    (classes t s q').value.result = .ok [.ofText "/r/cl/C@Foo@Bars.h"] := by
  intro t s q q'
  have hwf : t.WellFormed := .of_entries (by decide +kernel)
  have hs : InspectorSettings.ofValue .lax t (.object [(some ("root" : Text), .text "/r")]) = .ok (.valid s) := by rfl
  have hq : q.isFullyQualified = false := by decide +kernel
  have hq' : q'.isFullyQualified = false := by decide +kernel
  have htokens : q.tokens = ["foo", "bars"] := by decide +kernel
  have htokens' : q'.tokens = ["bars", "foo"] := by decide +kernel
  have hperm : q.tokens.Perm q'.tokens := by
    rw [htokens, htokens']
    exact .swap _ _ _
  have hseed : q.longestToken = q'.longestToken := by
    refine SearchQuery.longestToken_eq_of_perm (w := "bars") hperm ?_ ?_
    · rw [htokens]
      exact ⟨[("foo" : Text)], [], rfl, by simp, by simp⟩
    · rw [htokens]
      simp
  have hfound : (functions t s q).value.result = .ok [.ofText "/r/foo/bars.cpp"] := by decide +kernel
  have hheaders : (classes t s q).value.result = .ok [.ofText "/r/cl/C@Foo@Bars.h"] := by decide +kernel
  obtain ⟨hsame, -, -⟩ := reordered_words_iff hwf hs hq hq' hperm
  obtain ⟨hfunctions, hclasses⟩ := hsame hseed
  exact ⟨⟨hwf, hs, hq, hq', hperm, hseed⟩, hfound, hfunctions.symm.trans hfound, hheaders,
    hclasses.symm.trans hheaders⟩

/-- Of two words of one length the first one has to stand in the name, the other one may stand in a
directory. -/
theorem reordered_words_tie :
    let t : FileTree := ⟨[(["r"], .directory), (["r", "cl"], .directory), (["r", "cl", "foo"], .directory),
      (["r", "cl", "foo", "bar.h"], .file []), (["r", "foo"], .directory),
      (["r", "foo", "bar.cpp"], .file (Utf8.encode "int f$a()"))], by decide +kernel, [], [], []⟩
    let s : InspectorSettings := ⟨"/r", "cl", "C@", ".cpp", ".h", false⟩
    let q := SearchQuery.ofText "foo bar"
    let q' := SearchQuery.ofText "bar foo"
    (t.WellFormed ∧ InspectorSettings.ofValue .lax t (.object [(some ("root" : Text), .text "/r")]) = .ok (.valid s) ∧
      q.isFullyQualified = false ∧ q'.isFullyQualified = false ∧ q.tokens.Perm q'.tokens) ∧
    (functions t s q).value.result = .ok [] ∧
    (functions t s q').value.result = .ok [.ofText "/r/foo/bar.cpp"] ∧
    (classes t s q).value.result = .ok [] ∧
    (classes t s q').value.result = .ok [.ofText "/r/cl/foo/bar.h"] := by
  intro t s q q'
  have htokens : q.tokens = ["foo", "bar"] := by decide +kernel
  have htokens' : q'.tokens = ["bar", "foo"] := by decide +kernel
  have hperm : q.tokens.Perm q'.tokens := by
    rw [htokens, htokens']
    exact .swap _ _ _
  exact ⟨⟨.of_entries (by decide +kernel), by rfl, by decide +kernel, by decide +kernel, hperm⟩,
    by decide +kernel, by decide +kernel, by decide +kernel, by decide +kernel⟩

end Locate

end GenScope
