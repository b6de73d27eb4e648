import GenScope.Proofs.Search.Offered

/-!
# Headers among the candidates

A header is offered although its source lies beside it exactly when the scan finds the header and not
the source (`header_beside_source_offered_iff`). Under the default names the two names are alike up to
the dot, so no qualified query parts them, and a list of words only if the word that seeds the scan
reaches into the extension (`seeks_header_of_not_source`).

What searches for functions and searches for classes both give are headers in the class directory
that do not carry the lead of class files (`unmarked_header_offered_twice`).
-/

namespace GenScope

/-! ### Endings of names -/

namespace Text

variable {s stem word : Text}

theorem lower_header_source (base : Text) : ∃ small, lower (base ++ ".h") = small ++ ".h" ∧
    lower (base ++ ".cpp") = small ++ ".cpp" :=
  lower_append_endings (by decide +kernel) (by simp; decide +kernel) (by simp; decide +kernel) base

theorem lower_append_dot (s : Text) : ∃ small, lower (s ++ ".") = small ++ "." := by
  have hdot : ∀ c ∈ ("." : Text), IsSmall c := by simp; decide +kernel
  obtain ⟨small, h, -⟩ := lower_append_endings rfl hdot hdot s
  exact ⟨small, h⟩

theorem isPrefix_source_of_header (h : stem ++ ("." : Text) <+: s ++ (".h" : Text)) :
    stem ++ ("." : Text) <+: s ++ (".cpp" : Text) := by
  have hsplit : s ++ (".h" : Text) = (s ++ ['.']) ++ ['h'] := by simp
  rw [hsplit, List.prefix_concat_iff] at h
  rcases h with h | h
  · have hlast : '.' = 'h' := by simpa using congrArg List.getLast? h
    exact absurd hlast (by decide)
  · exact h.trans ((List.prefix_append_right_inj s).2 (by decide))

theorem eq_or_isSuffix_of_isInfix_header (hne : word ≠ []) (h : word <:+: s ++ (".h" : Text))
    (hsource : ¬ word <:+: s ++ (".cpp" : Text)) : word = "h" ∨ (".h" : Text) <:+ word := by
  have hsplit : s ++ (".h" : Text) = (s ++ ['.']) ++ ['h'] := by simp
  have hdot : s ++ ['.'] <:+: s ++ (".cpp" : Text) := ((List.prefix_append_right_inj s).2 (by decide)).isInfix
  rw [hsplit, List.infix_concat_iff] at h
  rcases h with h | h
  · rcases List.suffix_concat_iff.1 h with rfl | ⟨front, rfl, hfront⟩
    · exact absurd rfl hne
    · rcases List.suffix_concat_iff.1 hfront with rfl | ⟨front, rfl, -⟩
      · exact .inl rfl
      · exact .inr ⟨front, by simp⟩
  · exact absurd (h.trans hdot) hsource

end Text

theorem IsBeside.unique {ext ext' : Text} {p src src' : Path} (h : IsBeside ext ext' p src)
    (h' : IsBeside ext ext' p src') : src = src' := by
  obtain ⟨dir, base, rfl, rfl⟩ := h
  obtain ⟨dir', base', hp, rfl⟩ := h'
  obtain ⟨rfl, hbase⟩ := Path.child_inj.1 hp
  rw [List.append_cancel_right hbase]

namespace Locate

variable {r : FieldReaders} {t : FileTree} {v : Value} {s : InspectorSettings} {q : SearchQuery}

theorem seeks_source_of_header {lead stem base : Text} (hq : q.path? = some stem)
    (h : q.Seeks lead (base ++ ".h")) : q.Seeks lead (base ++ ".cpp") := by
  obtain ⟨small, hheader, hsource⟩ := Text.lower_header_source base
  obtain ⟨front, hfront⟩ := Text.lower_append_dot (lead ++ stem)
  unfold SearchQuery.Seeks at h ⊢
  simp only [hq, hfront, hheader, hsource] at h ⊢
  exact ⟨h.1, Text.isPrefix_source_of_header h.2⟩

/-- A query that parts a header from its source is a list of words whose seed reaches into the
extension of the header. -/
theorem seeks_header_of_not_source {base : Text} (h : q.Seeks [] (base ++ ".h"))
    (hsource : ¬ q.Seeks [] (base ++ ".cpp")) :
    q.isFullyQualified = false ∧ ∃ w, SearchQuery.IsFirstLongest w q.tokens ∧ (w = "h" ∨ ".h" <:+ w) := by
  cases hpath : q.path? with
  | some stem => exact absurd (seeks_source_of_header hpath h) hsource
  | none =>
    obtain ⟨small, hheader, hcpp⟩ := Text.lower_header_source base
    unfold SearchQuery.Seeks at h hsource
    simp only [hpath, hheader, hcpp] at h hsource
    obtain ⟨w, hw, hi⟩ := h
    have hne := (SearchQuery.mem_tokens hw.mem).1
    refine ⟨SearchQuery.path?_eq_none_iff.1 hpath, w, hw, ?_⟩
    exact Text.eq_or_isSuffix_of_isInfix_header hne hi fun hi => hsource ⟨w, hw, hi⟩

/-- A header whose source lies beside it is offered if the scan finds the header and does not find the
source, and the header is a candidate apart from that. Under the default names this takes a list of
words of which the first longest is `h` or ends in `.h`. -/
theorem header_beside_source_offered_iff (hwf : t.WellFormed)
    (hs : InspectorSettings.ofValue r t v = .ok (.valid s)) (q : SearchQuery) :
    ∃ l, (functions t s q).value.result = .ok l ∧
      (∀ names, ¬ s.sourceExtension <:+ (s.rootPath.below names).name →
        ∀ src ∈ t.filesBelow s.rootPath,
          IsBeside s.headerExtension s.sourceExtension (s.rootPath.below names) src →
        (s.rootPath.below names ∈ l ↔
          t.Finds s.rootPath [] q (s.rootPath.below names) ∧ ¬ q.Seeks [] src.name ∧
          (∀ w ∈ q.words, HasWord (Text.lower (Text.join "/" names)) w) ∧ ¬ HasClassMark s names ∧
          PassesForDefinition t (s.rootPath.below names))) ∧
      (DefaultNames s → ∀ p ∈ l, ∀ src ∈ t.filesBelow s.rootPath,
        IsBeside s.headerExtension s.sourceExtension p src → q.isFullyQualified = false ∧
          ∃ w, SearchQuery.IsFirstLongest w q.tokens ∧ (w = "h" ∨ ".h" <:+ w)) := by
  classical
  have hlist := functions_eq_filter hwf hs q
  refine ⟨_, hlist, fun names hnot src hsrc hbeside => ?_, fun hd p hp src hsrc hbeside => ?_⟩
  · rw [below_mem_functions_iff hwf hs hlist]
    constructor
    · intro hc
      obtain ⟨-, hsources, hmark⟩ := hc.kind.resolve_left hnot
      exact ⟨hc.isFound, fun hseeks => hsources src ⟨hsrc, hseeks⟩ hbeside, hc.hasWords, hmark, hc.definition⟩
    · rintro ⟨hfound, hseeks, hwords, hmark, hdef⟩
      have hheader : s.headerExtension <:+ (s.rootPath.below names).name := by
        obtain ⟨dir, base, hp, -⟩ := hbeside
        rw [hp, Path.name_child]
        exact List.suffix_append ..
      refine ⟨hfound, hwords, .inr ⟨hheader, fun src' hfound' hbeside' => ?_, hmark⟩, hdef⟩
      rw [← hbeside.unique hbeside'] at hfound'
      exact hseeks hfound'.2
  · obtain ⟨names, rfl, hc⟩ := (mem_functions_iff hwf hs hlist).1 hp
    obtain ⟨dir, base, hheader, rfl⟩ := id hbeside
    rw [hd.header] at hheader
    rw [hd.source] at hsrc
    have hname : (s.rootPath.below names).name = base ++ ".h" := by rw [hheader, Path.name_child]
    have hnot : ¬ s.sourceExtension <:+ (s.rootPath.below names).name := by
      rw [hd.source, hname]
      exact not_source_of_header (List.suffix_append ..)
    obtain ⟨-, hsources, -⟩ := hc.kind.resolve_left hnot
    refine seeks_header_of_not_source (hname ▸ hc.isFound.2) fun hseeks => hsources _ ⟨?_, ?_⟩ hbeside
    · rw [hd.source]
      exact hsrc
    · rw [hd.source, Path.name_child]
      exact hseeks

/-- The scan for `h` finds a header and not the source beside it. -/
theorem header_beside_source_offered_h :
    let t : FileTree := ⟨[(["r"], .directory), (["r", "a.cpp"], .file (Utf8.encode "int f$a()")),
      (["r", "a.h"], .file (Utf8.encode "int f$a()"))], by decide +kernel, [], [], []⟩
    let s : InspectorSettings := ⟨"/r", "cl", "C@", ".cpp", ".h", false⟩
    let q := SearchQuery.ofText "h"
    (t.WellFormed ∧ InspectorSettings.ofValue .lax t (.object [(some ("root" : Text), .text "/r")]) = .ok (.valid s) ∧
      ¬ s.sourceExtension <:+ (s.rootPath.below ["a.h"]).name ∧
      s.rootPath.below ["a.cpp"] ∈ t.filesBelow s.rootPath ∧
      IsBeside s.headerExtension s.sourceExtension (s.rootPath.below ["a.h"]) (s.rootPath.below ["a.cpp"]) ∧
      DefaultNames s) ∧
    (functions t s q).value.result = .ok [s.rootPath.below ["a.h"]] ∧
    t.Finds s.rootPath [] q (s.rootPath.below ["a.h"]) ∧ ¬ q.Seeks [] "a.cpp" ∧
    ∃ w, SearchQuery.IsFirstLongest w q.tokens ∧ (w = "h" ∨ (".h" : Text) <:+ w) := by
  intro t s q
  have hwf : t.WellFormed := .of_entries (by decide +kernel)
  have hs : InspectorSettings.ofValue .lax t (.object [(some ("root" : Text), .text "/r")]) = .ok (.valid s) := by rfl
  have hnot : ¬ s.sourceExtension <:+ (s.rootPath.below ["a.h"]).name := by decide +kernel
  have hsrc : s.rootPath.below ["a.cpp"] ∈ t.filesBelow s.rootPath := by decide +kernel
  have hbeside : IsBeside s.headerExtension s.sourceExtension (s.rootPath.below ["a.h"])
      (s.rootPath.below ["a.cpp"]) := ⟨s.rootPath, "a", rfl, rfl⟩
  have hlist : (functions t s q).value.result = .ok [s.rootPath.below ["a.h"]] := by decide +kernel
  obtain ⟨l, hl, hoffered, hword⟩ := header_beside_source_offered_iff hwf hs q
  obtain rfl := Except.ok.inj (hl.symm.trans hlist)
  obtain ⟨hfound, hseeks, -⟩ := (hoffered ["a.h"] hnot _ hsrc hbeside).1 (by simp)
  have hword := (hword ⟨rfl, rfl, rfl, rfl⟩ _ (by simp) _ hsrc hbeside).2
  exact ⟨⟨hwf, hs, hnot, hsrc, hbeside, ⟨rfl, rfl, rfl, rfl⟩⟩, hlist, hfound, hseeks, hword⟩

/-- The header is offered although its source is in the tree. -/
theorem header_offered_beside_source :
    let t : FileTree := ⟨[(["out"], .directory),
      (["out", "a.cpp"], .file (Utf8.encode "int64_t f$a() \x7b\n\x7d\n")),
      (["out", "a.h"], .file (Utf8.encode "int64_t f$a();\n"))], by decide +kernel, [], [], []⟩
    let s : InspectorSettings := ⟨"/out", "cl", "C@", ".cpp", ".h", false⟩
    (t.WellFormed ∧ InspectorSettings.ofValue .lax t (.object [(some ("root" : Text), .text "/out")]) = .ok (.valid s) ∧
      s.sourceExtension ≠ s.headerExtension) ∧
    (functions t s (.ofText "h")).value.result = .ok [.ofText "/out/a.h"] ∧
    IsBeside s.headerExtension s.sourceExtension (.ofText "/out/a.h") (.ofText "/out/a.cpp") ∧
    t.read (.ofText "/out/a.cpp") = .ok (Utf8.encode "int64_t f$a() \x7b\n\x7d\n") :=
  ⟨⟨.of_entries (by decide +kernel), by rfl, by decide⟩, by decide +kernel,
    ⟨.ofText "/out", "a", by decide +kernel, by decide +kernel⟩, by rfl⟩

/-! ### Functions and classes -/

/-- A search for functions and a search for classes both give the file. -/
def OfferedTwice (t : FileTree) (s : InspectorSettings) (p q : SearchQuery) (x : Path) : Prop :=
  ∃ l l', (functions t s p).value.result = .ok l ∧ (classes t s q).value.result = .ok l' ∧ x ∈ l ∧ x ∈ l'

/-- A header in the class directory that passes for the file of a function and is not marked as that
of a class. -/
structure IsUnmarkedHeader (t : FileTree) (s : InspectorSettings) (names : List Text) : Prop where
  isFile : s.rootPath.below ("cl" :: names) ∈ t.filesBelow s.rootPath
  header : (".h" : Text) <:+ (s.rootPath.below ("cl" :: names)).name
  unmarked : ¬ HasClassMark s ("cl" :: names)
  definition : PassesForDefinition t (s.rootPath.below ("cl" :: names))

theorem DefaultNames.classRoot_eq (hd : DefaultNames s) : s.classRoot = s.rootPath.below ["cl"] := by
  rw [InspectorSettings.classRoot, hd.subdir]
  rfl

theorem DefaultNames.classRoot_below (hd : DefaultNames s) (names : List Text) :
    s.classRoot.below names = s.rootPath.below ("cl" :: names) := by
  simp [hd.classRoot_eq, Path.below]

theorem offeredTwice_iff (hwf : t.WellFormed) (hs : InspectorSettings.ofValue r t v = .ok (.valid s))
    (hd : DefaultNames s) (p q : SearchQuery) (x : Path) : OfferedTwice t s p q x ↔
      ∃ names, x = s.rootPath.below ("cl" :: names) ∧
        IsFunctionCandidate t s (t.Finds s.rootPath [] p) p.words ("cl" :: names) ∧
        IsClassCandidate s (t.Finds s.classRoot s.classFileLead q) q.words names := by
  classical
  constructor
  · rintro ⟨l, l', hl, hl', hx, hx'⟩
    obtain ⟨names, rfl, hc⟩ := (mem_classes_iff hwf hl').1 hx'
    rw [hd.classRoot_below] at hx ⊢
    exact ⟨names, rfl, (below_mem_functions_iff hwf hs hl).1 hx, hc⟩
  · rintro ⟨names, rfl, hf, hc⟩
    obtain ⟨loc, hfollow, hloc⟩ := FileTree.follow_of_mem_filesBelow hc.isFound.1
    have hfunctions := functions_eq_filter hwf hs p
    have hclasses := classes_eq_filter hwf (FileTree.isDirectory_of_follow hfollow hloc) q
    refine ⟨_, _, hfunctions, hclasses, (below_mem_functions_iff hwf hs hfunctions).2 hf, ?_⟩
    exact (mem_classes_iff hwf hclasses).2 ⟨names, (hd.classRoot_below names).symm, hc⟩

/-- The words of the query `h` stand in the path of every header. -/
theorem hasWord_header {names : List Text} {p : Path} (hne : names ≠ [])
    (h : (".h" : Text) <:+ (p.below names).name) :
    ∀ w ∈ (SearchQuery.ofText "h").words, HasWord (Text.lower (Text.join "/" names)) w := by
  have hwords : (SearchQuery.ofText "h").words = [("h" : Text)] := by decide +kernel
  intro w hw
  rw [hwords, List.mem_singleton] at hw
  subst hw
  rcases List.eq_nil_or_concat names with rfl | ⟨dir, name, rfl⟩
  · exact absurd rfl hne
  · rw [List.concat_eq_append] at h ⊢
    rw [Path.name_below_append] at h
    obtain ⟨base, rfl⟩ := h
    obtain ⟨small, hlower, -⟩ := Text.lower_header_source (Text.join "/" (dir ++ [base]))
    rw [Text.join_append_append, hlower]
    refine ⟨small ++ ".", [], by simp, fun c hc => ?_, by simp⟩
    obtain rfl : c = '.' := by simpa [eq_comm] using hc
    decide

theorem seeks_h_iff {lead name : Text} :
    (SearchQuery.ofText "h").Seeks lead name ↔ ("h" : Text) <:+: Text.lower name := by
  have hpath : (SearchQuery.ofText "h").path? = none := by rfl
  have hfirst : SearchQuery.IsFirstLongest "h" (SearchQuery.ofText "h").tokens :=
    SearchQuery.longest_eq_some_iff.1 (by decide +kernel)
  rw [SearchQuery.Seeks, hpath]
  exact hfirst.exists_iff

theorem seeks_h_header {lead name : Text} (h : (".h" : Text) <:+ name) :
    (SearchQuery.ofText "h").Seeks lead name := by
  obtain ⟨base, rfl⟩ := h
  obtain ⟨small, hlower, -⟩ := Text.lower_header_source base
  rw [seeks_h_iff, hlower]
  exact ⟨small ++ ".", [], by simp⟩

theorem isUnmarkedHeader_of_candidates {found found' : Path → Prop} {words words' names : List Text}
    (hd : DefaultNames s) (hfile : s.rootPath.below ("cl" :: names) ∈ t.filesBelow s.rootPath)
    (hf : IsFunctionCandidate t s found words ("cl" :: names)) (hc : IsClassCandidate s found' words' names) :
    IsUnmarkedHeader t s names ∧
      ∀ src, found src → ¬ IsBeside ".h" ".cpp" (s.rootPath.below ("cl" :: names)) src := by
  have hheader : (".h" : Text) <:+ (s.rootPath.below ("cl" :: names)).name := by
    have := hc.kind
    rwa [hd.header, hd.classRoot_below] at this
  have hkind := hf.kind
  rw [hd.source, hd.header] at hkind
  obtain ⟨-, hsources, hmark⟩ := hkind.resolve_left (not_source_of_header hheader)
  exact ⟨⟨hfile, hheader, hmark, hf.definition⟩, hsources⟩

namespace IsUnmarkedHeader

variable {names : List Text}

theorem names_ne (h : IsUnmarkedHeader t s names) : names ≠ [] := by
  rintro rfl
  have hname : (s.rootPath.below ["cl"]).name = "cl" := Path.name_below_append _ [] _
  exact absurd (hname ▸ h.header) (by decide)

theorem isFunctionCandidate (h : IsUnmarkedHeader t s names) (hd : DefaultNames s)
    (hsources : ∀ src ∈ t.filesBelow s.rootPath,
      IsBeside ".h" ".cpp" (s.rootPath.below ("cl" :: names)) src → ¬ ("h" : Text) <:+: Text.lower src.name) :
    IsFunctionCandidate t s (t.Finds s.rootPath [] (.ofText "h")) (SearchQuery.ofText "h").words
      ("cl" :: names) where
  isFound := ⟨h.isFile, seeks_h_header h.header⟩
  hasWords := hasWord_header (List.cons_ne_nil _ _) h.header
  kind := by
    rw [hd.header, hd.source]
    refine .inr ⟨h.header, fun src hsrc hbeside => ?_, h.unmarked⟩
    exact hsources src hsrc.1 hbeside (seeks_h_iff.1 hsrc.2)
  definition := h.definition

theorem isClassCandidate (h : IsUnmarkedHeader t s names) (hwf : t.WellFormed) (hd : DefaultNames s) :
    IsClassCandidate s (t.Finds s.classRoot s.classFileLead (.ofText "h")) (SearchQuery.ofText "h").words
      names := by
  have hfile : s.rootPath.below ([("cl" : Text)] ++ names) ∈ t.filesBelow s.rootPath := h.isFile
  have hbelow := hwf.mem_filesBelow_below h.names_ne hfile
  have hheader : (".h" : Text) <:+ (s.classRoot.below names).name := hd.classRoot_below names ▸ h.header
  refine ⟨⟨?_, seeks_h_header hheader⟩, hasWord_header h.names_ne hheader, ?_⟩
  · rw [hd.classRoot_below, hd.classRoot_eq]
    exact hbelow
  · rw [hd.header]
    exact hheader

end IsUnmarkedHeader

/-- Whatever is asked for, what a search for functions and one for classes both give is a header in
the class directory without the mark of class headers. All of these are given by both searches for
`h`, except beside a source with that letter in its name. -/
theorem unmarked_header_offered_twice (hwf : t.WellFormed)
    (hs : InspectorSettings.ofValue r t v = .ok (.valid s)) (hd : DefaultNames s) :
    (∀ p q x, OfferedTwice t s p q x →
      ∃ names, x = s.rootPath.below ("cl" :: names) ∧ IsUnmarkedHeader t s names) ∧
    ∀ names, OfferedTwice t s (.ofText "h") (.ofText "h") (s.rootPath.below ("cl" :: names)) ↔
      IsUnmarkedHeader t s names ∧ ∀ src ∈ t.filesBelow s.rootPath,
        IsBeside ".h" ".cpp" (s.rootPath.below ("cl" :: names)) src →
          ¬ ("h" : Text) <:+: Text.lower src.name := by
  refine ⟨fun p q x h => ?_, fun names => ?_⟩
  · obtain ⟨names, rfl, hf, hc⟩ := (offeredTwice_iff hwf hs hd p q x).1 h
    exact ⟨names, rfl, (isUnmarkedHeader_of_candidates hd hf.isFound.1 hf hc).1⟩
  · rw [offeredTwice_iff hwf hs hd]
    constructor
    · rintro ⟨names', heq, hf, hc⟩
      obtain rfl := (List.cons_inj_right _).1 (Path.below_inj.1 heq)
      obtain ⟨h, hsources⟩ := isUnmarkedHeader_of_candidates hd hf.isFound.1 hf hc
      exact ⟨h, fun src hsrc hbeside hi => hsources src ⟨hsrc, seeks_h_iff.2 hi⟩ hbeside⟩
    · rintro ⟨h, hsources⟩
      exact ⟨names, rfl, h.isFunctionCandidate hd hsources, h.isClassCandidate hwf hd⟩

/-- Of two headers with definitions in the class directory the one without the mark is given twice. -/
theorem unmarked_header_offered_twice_foo :
    let t : FileTree := ⟨[(["r"], .directory), (["r", "cl"], .directory),
      (["r", "cl", "C@a.h"], .file (Utf8.encode "int f$a()")),
      (["r", "cl", "foo.h"], .file (Utf8.encode "int f$foo()"))], by decide +kernel, [], [], []⟩
    let s : InspectorSettings := ⟨"/r", "cl", "C@", ".cpp", ".h", false⟩
    (t.WellFormed ∧ InspectorSettings.ofValue .lax t (.object [(some ("root" : Text), .text "/r")]) = .ok (.valid s) ∧
      DefaultNames s) ∧
    OfferedTwice t s (.ofText "foo") (.ofText "h foo") (.ofText "/r/cl/foo.h") ∧
    IsUnmarkedHeader t s ["foo.h"] ∧
    OfferedTwice t s (.ofText "h") (.ofText "h") (.ofText "/r/cl/foo.h") ∧
    ¬ OfferedTwice t s (.ofText "h") (.ofText "h") (.ofText "/r/cl/C@a.h") := by
  intro t s
  have hwf : t.WellFormed := .of_entries (by decide +kernel)
  have hs : InspectorSettings.ofValue .lax t (.object [(some ("root" : Text), .text "/r")]) = .ok (.valid s) := by rfl
  have hd : DefaultNames s := ⟨rfl, rfl, rfl, rfl⟩
  have hfoo : Path.ofText "/r/cl/foo.h" = s.rootPath.below ["cl", "foo.h"] := by decide +kernel
  have ha : Path.ofText "/r/cl/C@a.h" = s.rootPath.below ["cl", "C@a.h"] := by decide +kernel
  obtain ⟨hunmarked, hh⟩ := unmarked_header_offered_twice hwf hs hd
  have htwice : OfferedTwice t s (.ofText "foo") (.ofText "h foo") (.ofText "/r/cl/foo.h") :=
    ⟨[.ofText "/r/cl/foo.h"], [.ofText "/r/cl/foo.h"], by decide +kernel, by decide +kernel, by simp, by simp⟩
  obtain ⟨names, heq, hheader⟩ := hunmarked _ _ _ htwice
  rw [hfoo, Path.below_inj, List.cons_inj_right] at heq
  subst heq
  have hsources : ∀ src ∈ t.filesBelow s.rootPath, ¬ (".cpp" : Text) <:+ src.name := by decide +kernel
  refine ⟨⟨hwf, hs, hd⟩, htwice, hheader, ?_, ?_⟩
  · rw [hfoo]
    refine (hh ["foo.h"]).2 ⟨hheader, fun src hsrc hbeside => absurd ?_ (hsources src hsrc)⟩
    obtain ⟨dir, base, -, rfl⟩ := hbeside
    rw [Path.name_child]
    exact List.suffix_append ..
  · rw [ha]
    intro h
    exact ((hh ["C@a.h"]).1 h).1.unmarked (.inl (by decide +kernel))

/-- One file is given as that of a function and as that of a class. -/
theorem header_offered_as_both :
    let t : FileTree := ⟨[(["out"], .directory), (["out", "cl"], .directory),
      (["out", "cl", "foo.h"], .file (Utf8.encode "inline int64_t f$foo() \x7b\n\x7d\n"))],
      by decide +kernel, [], [], []⟩
    let s : InspectorSettings := ⟨"/out", "cl", "C@", ".cpp", ".h", false⟩
    let q := SearchQuery.ofText "foo"
    (t.WellFormed ∧ InspectorSettings.ofValue .lax t (.object [(some ("root" : Text), .text "/out")]) = .ok (.valid s) ∧
      DefaultNames s) ∧
    (functions t s q).value.result = .ok [.ofText "/out/cl/foo.h"] ∧
    (classes t s q).value.result = .ok [.ofText "/out/cl/foo.h"] :=
  ⟨⟨.of_entries (by decide +kernel), by rfl, ⟨rfl, rfl, rfl, rfl⟩⟩, by decide +kernel, by decide +kernel⟩

end Locate

end GenScope
