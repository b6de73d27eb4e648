import GenScope.Proofs.Search.Headers

/-!
# Qualified names and their words

Asking for a qualified name gives no more than asking for its words: in a path whose name starts with
the stem of the name's file the parts of the name stand as whole words (`hasWord_of_isPrefix_name`),
and the source beside a header that is found under the stem is found under it as well
(`seeks_source_of_header`). So the candidates of the qualified query are among those of the words, in
the same order (`qualified_sublist_words`).
-/

namespace GenScope

/-! ### Parts of a stem -/

/-- The text does not end inside a word. -/
def EndsWord (s : Text) : Prop := ∀ c, s.getLast? = some c → continuesWord c = false

/-- The text does not start inside a word. -/
def StartsWord (s : Text) : Prop := ∀ c, s.head? = some c → continuesWord c = false

theorem endsWord_concat {s : Text} {c : Char} (h : continuesWord c = false) : EndsWord (s ++ [c]) := by
  intro d hd
  obtain rfl : d = c := by simpa [eq_comm] using hd
  exact h

theorem startsWord_cons {s : Text} {c : Char} (h : continuesWord c = false) : StartsWord (c :: s) := by
  intro d hd
  obtain rfl : d = c := by simpa [eq_comm] using hd
  exact h

theorem HasWord.isInfix {text word : Text} (h : HasWord text word) : word <:+: text := by
  obtain ⟨before, after, rfl, -⟩ := h
  exact ⟨before, after, rfl⟩

theorem hasWord_join {sep : Char} (hsep : continuesWord sep = false) {before after : Text} {ds : List Text}
    (hbefore : EndsWord before) (hafter : StartsWord after) :
    ∀ d ∈ ds, HasWord (before ++ Text.join [sep] ds ++ after) d := by
  induction ds generalizing before with
  | nil => simp
  | cons d ds ih =>
    cases ds with
    | nil =>
      intro e he
      rw [List.mem_singleton.1 he, Text.join_singleton]
      exact ⟨before, after, rfl, hbefore, hafter⟩
    | cons next ds =>
      have hsplit : before ++ Text.join [sep] (d :: next :: ds) ++ after =
          (before ++ d ++ [sep]) ++ Text.join [sep] (next :: ds) ++ after := by
        simp [Text.join_cons_cons]
      intro e he
      rcases List.mem_cons.1 he with rfl | he
      · refine ⟨before, sep :: (Text.join [sep] (next :: ds) ++ after), ?_, hbefore, startsWord_cons hsep⟩
        rw [hsplit]
        simp
      · rw [hsplit]
        exact ih (endsWord_concat hsep) e he

namespace QualifiedName

variable {n : QualifiedName} {before after lead name call : Text} {names : List Text} {p : Path}

theorem hasWord_stem (hbefore : EndsWord before) (hafter : StartsWord after) :
    ∀ w ∈ n.parts, HasWord (before ++ n.stem ++ after) w := by
  have hsep : continuesWord '@' = false := by decide
  intro w hw
  unfold stem written
  rcases List.mem_append.1 hw with hw | hw
  · rw [← List.append_assoc, List.append_assoc _ _ after]
    refine hasWord_join hsep hbefore ?_ w hw
    cases n.method with
    | none => simpa using hafter
    | some m => exact startsWord_cons hsep
  · obtain hm : n.method = some w := Option.mem_toList.1 hw
    refine ⟨before ++ Text.join ['@'] n.segments ++ "@@", after, by simp [hm], ?_, hafter⟩
    rw [show ("@@" : Text) = ['@'] ++ ['@'] from rfl, ← List.append_assoc]
    exact endsWord_concat hsep

theorem OfWords.parts_ne (h : n.OfWords) : n.parts ≠ [] := by
  simp [parts, h.segments_ne]

theorem OfWords.lower_lead_stem (h : n.OfWords) (hlead : ∀ c ∈ lead, c.toNat < 128) :
    Text.lower (lead ++ n.stem ++ ".") = lead.map Char.toLower ++ n.lower.stem ++ "." := by
  have hascii : ∀ c ∈ lead ++ n.stem ++ ("." : Text), c.toNat < 128 := by
    intro c hc
    simp only [List.mem_append] at hc
    rcases hc with (hc | hc) | hc
    · exact hlead c hc
    · exact h.forall_written (p := fun c => c.toNat < 128) (by decide) (by simp)
        (fun c hc => toNat_lt_of_isNameChar hc) c hc
    · obtain rfl : c = '.' := by simpa using hc
      decide
  rw [Text.lower_of_forall hascii, List.map_append, List.map_append, stem,
    map_toLower_written (by decide) (by decide)]
  rfl

/-- In a path whose name starts with the stem of the file the parts of the name stand as words. -/
theorem OfWords.hasWord_of_isPrefix_name (h : n.OfWords) (hlead : ∀ c ∈ lead, c.toNat < 128)
    (hends : EndsWord (lead.map Char.toLower)) (hne : names ≠ [])
    (hname : Text.lower (lead ++ n.stem ++ ".") <+: Text.lower (p.below names).name) :
    ∀ w ∈ n.lower.parts, HasWord (Text.lower (Text.join "/" names)) w := by
  rcases List.eq_nil_or_concat names with rfl | ⟨dir, name, rfl⟩
  · exact absurd rfl hne
  rw [List.concat_eq_append] at hname ⊢
  rw [Path.name_below_append, h.lower_lead_stem hlead] at hname
  obtain ⟨rest, hrest⟩ := hname
  -- in front of the name stands nothing or a slash
  obtain ⟨before, hbefore, hpath⟩ : ∃ before, EndsWord before ∧
      Text.lower (Text.join "/" (dir ++ [name])) = before ++ Text.lower name := by
    by_cases hdir : dir = []
    · exact ⟨[], by simp [EndsWord], by simp [hdir]⟩
    · refine ⟨Text.lower (Text.join "/" dir) ++ ['/'], endsWord_concat (by decide), ?_⟩
      rw [Text.join_concat _ hdir]
      simpa using Text.lower_append_slash (Text.join "/" dir) name
  have hends : EndsWord (before ++ lead.map Char.toLower) := by
    intro c hc
    rw [List.getLast?_append, Option.or_eq_some_iff] at hc
    rcases hc with hc | ⟨-, hc⟩
    · exact hends c hc
    · exact hbefore c hc
  have hdot : StartsWord ('.' :: rest) := startsWord_cons (by decide)
  rw [hpath, ← hrest]
  simpa using hasWord_stem hends hdot

end QualifiedName

namespace Locate

variable {r : FieldReaders} {t : FileTree} {v : Value} {s : InspectorSettings} {n : QualifiedName} {call lead : Text}
  {names : List Text}

theorem isPrefix_of_seeks {name : Text} (h : n.OfWords) (hcall : call = [] ∨ call = "()")
    (hseeks : (SearchQuery.ofText ('\\' :: (n.text ++ call))).Seeks lead name) :
    Text.lower (lead ++ n.stem ++ ".") <+: Text.lower name := by
  rw [SearchQuery.Seeks, h.path?_call hcall] at hseeks
  exact hseeks.2

theorem words_ofText (h : n.OfWords) (hcall : call = [] ∨ call = "()") :
    (SearchQuery.ofText (n.text ++ call)).words = n.lower.parts := by
  rw [SearchQuery.words_of_path?_none (h.path?_ofText hcall), h.tokens_ofText hcall]

/-- A scan for the words of a name finds what one for the name finds. -/
theorem seeks_words {lead' name : Text} (h : n.OfWords) (hcall : call = [] ∨ call = "()")
    (hlead : ∀ c ∈ lead, c.toNat < 128)
    (hseeks : (SearchQuery.ofText ('\\' :: (n.text ++ call))).Seeks lead name) :
    (SearchQuery.ofText (n.text ++ call)).Seeks lead' name := by
  have hname := isPrefix_of_seeks h hcall hseeks
  obtain ⟨w, hw⟩ := SearchQuery.exists_isFirstLongest h.lower.parts_ne
  rw [SearchQuery.Seeks, h.path?_ofText hcall, h.tokens_ofText hcall]
  refine ⟨w, hw, ?_⟩
  have hword : HasWord ([] ++ n.lower.stem ++ []) w :=
    QualifiedName.hasWord_stem (by simp [EndsWord]) (by simp [StartsWord]) w hw.mem
  have hstem : n.lower.stem <:+: Text.lower (lead ++ n.stem ++ ".") := by
    rw [h.lower_lead_stem hlead]
    exact ⟨_, _, rfl⟩
  refine (?_ : w <:+: n.lower.stem).trans (hstem.trans hname.isInfix)
  simpa using hword.isInfix

theorem IsFunctionCandidate.ofWords (hwf : t.WellFormed) (hd : DefaultNames s) (h : n.OfWords)
    (hcall : call = [] ∨ call = "()") (hc : IsFunctionCandidate t s
      (t.Finds s.rootPath [] (.ofText ('\\' :: (n.text ++ call)))) [] names) :
    IsFunctionCandidate t s (t.Finds s.rootPath [] (.ofText (n.text ++ call))) n.lower.parts names where
  isFound := ⟨hc.isFound.1, seeks_words h hcall (by simp) hc.isFound.2⟩
  hasWords := h.hasWord_of_isPrefix_name (by simp) (by simp [EndsWord])
    (hwf.ne_nil_of_mem_filesBelow hc.isFound.1) (isPrefix_of_seeks h hcall hc.isFound.2)
  kind := by
    rcases hc.kind with hsource | ⟨hheader, hsources, hmark⟩
    · exact .inl hsource
    · refine .inr ⟨hheader, fun src hsrc hbeside => ?_, hmark⟩
      -- the scan for the name has found this source too
      refine hsources src ⟨hsrc.1, ?_⟩ hbeside
      rw [hd.header, hd.source] at hbeside
      obtain ⟨dir, base, hx, rfl⟩ := hbeside
      have hseeks := hc.isFound.2
      rw [hx, Path.name_child] at hseeks
      rw [Path.name_child]
      exact seeks_source_of_header (h.path?_call hcall) hseeks
  definition := hc.definition

theorem IsClassCandidate.ofWords (hwf : t.WellFormed) (hd : DefaultNames s) (h : n.OfWords)
    (hcall : call = [] ∨ call = "()") (hc : IsClassCandidate s
      (t.Finds s.classRoot s.classFileLead (.ofText ('\\' :: (n.text ++ call)))) [] names) :
    IsClassCandidate s (t.Finds s.classRoot s.classFileLead (.ofText (n.text ++ call))) n.lower.parts names := by
  have hlead : ∀ c ∈ s.classFileLead, c.toNat < 128 := by
    rw [hd.lead]
    simp
  have hends : EndsWord (s.classFileLead.map Char.toLower) := by
    rw [hd.lead]
    exact endsWord_concat (s := ['c']) (by decide)
  have hne := hwf.ne_nil_of_mem_filesBelow hc.isFound.1
  exact ⟨⟨hc.isFound.1, seeks_words h hcall hlead hc.isFound.2⟩,
    h.hasWord_of_isPrefix_name hlead hends hne (isPrefix_of_seeks h hcall hc.isFound.2), hc.kind⟩

theorem filter_sublist_of_imp {paths : List Path} {c c' : Path → Prop} [DecidablePred c] [DecidablePred c']
    (h : ∀ p, c p → c' p) : (paths.filter fun p => c p).Sublist (paths.filter fun p => c' p) := by
  refine List.monotone_filter_right _ fun p => Bool.le_iff_imp.2 fun hp => ?_
  rw [decide_eq_true_eq] at hp ⊢
  exact h p hp

/-- What a query for a qualified name gives, with or without empty parentheses, is among what the
words of the name give, in the same order; without a class directory both searches for classes fail
alike. -/
theorem qualified_sublist_words (hwf : t.WellFormed) (hs : InspectorSettings.ofValue r t v = .ok (.valid s))
    (hd : DefaultNames s) (h : n.OfWords) (hcall : call = [] ∨ call = "()") :
    (∃ l l', (functions t s (.ofText ('\\' :: (n.text ++ call)))).value.result = .ok l ∧
      (functions t s (.ofText (n.text ++ call))).value.result = .ok l' ∧ l.Sublist l') ∧
    (t.isDirectory s.classRoot = true →
      ∃ l l', (classes t s (.ofText ('\\' :: (n.text ++ call)))).value.result = .ok l ∧
        (classes t s (.ofText (n.text ++ call))).value.result = .ok l' ∧ l.Sublist l') ∧
    (t.isDirectory s.classRoot = false →
      ∃ e, (classes t s (.ofText ('\\' :: (n.text ++ call)))).value.result = .error e ∧
        (classes t s (.ofText (n.text ++ call))).value.result = .error e) := by
  classical
  have hqualified := SearchQuery.words_of_path? (h.path?_call hcall)
  have hwords := words_ofText h hcall
  refine ⟨⟨_, _, functions_eq_filter hwf hs _, functions_eq_filter hwf hs _, ?_⟩, fun hdir =>
    ⟨_, _, classes_eq_filter hwf hdir _, classes_eq_filter hwf hdir _, ?_⟩, fun hdir => ?_⟩
  · rw [hqualified, hwords]
    refine filter_sublist_of_imp fun p hp => ?_
    obtain ⟨names, rfl, hc⟩ := hp
    exact ⟨names, rfl, hc.ofWords hwf hd h hcall⟩
  · rw [hqualified, hwords]
    refine filter_sublist_of_imp fun p hp => ?_
    obtain ⟨names, rfl, hc⟩ := hp
    exact ⟨names, rfl, hc.ofWords hwf hd h hcall⟩
  · obtain ⟨e, he⟩ := classes_of_not_isDirectory hdir
    refine ⟨e, he _ ?_, he _ ?_⟩
    · simp [plan, h.path?_call hcall, h.stem_ne]
    · obtain ⟨w, hw⟩ := SearchQuery.exists_isFirstLongest h.lower.parts_ne
      have hlongest : (SearchQuery.ofText (n.text ++ call)).longestToken = some w := by
        rw [SearchQuery.longestToken, h.tokens_ofText hcall, SearchQuery.longest_eq_some_iff.2 hw]
      simp [plan, h.path?_ofText hcall, hlongest]

/-- A method in a source beside its header, of which the words alone find a later version too, and
the header of its class. -/
theorem qualified_sublist_words_method :
    let n : QualifiedName := ⟨["VK", "Post"], some "take"⟩
    let t : FileTree := ⟨[(["r"], .directory), (["r", "VK@Post@@take.cpp"], .file (Utf8.encode "int f$a()")),
      (["r", "VK@Post@@take.h"], .file (Utf8.encode "int f$a()")), (["r", "cl"], .directory),
      (["r", "cl", "C@VK@Post@@take.h"], .file []),
      (["r", "take_post_vk.cpp"], .file (Utf8.encode "int f$a()"))], by decide +kernel, [], [], []⟩
    let s : InspectorSettings := ⟨"/r", "cl", "C@", ".cpp", ".h", false⟩
    let call : Text := "()"
    (t.WellFormed ∧ InspectorSettings.ofValue .lax t (.object [(some ("root" : Text), .text "/r")]) = .ok (.valid s) ∧
      DefaultNames s ∧ n.OfWords ∧ t.isDirectory s.classRoot = true) ∧
    (functions t s (.ofText ('\\' :: (n.text ++ call)))).value.result = .ok [.ofText "/r/VK@Post@@take.cpp"] ∧
    (functions t s (.ofText (n.text ++ call))).value.result =
      .ok [.ofText "/r/VK@Post@@take.cpp", .ofText "/r/take_post_vk.cpp"] ∧
    ∃ l, (classes t s (.ofText ('\\' :: (n.text ++ call)))).value.result =
        .ok [.ofText "/r/cl/C@VK@Post@@take.h"] ∧
      (classes t s (.ofText (n.text ++ call))).value.result = .ok l ∧
      [Path.ofText "/r/cl/C@VK@Post@@take.h"].Sublist l := by
  intro n t s call
  have hwf : t.WellFormed := .of_entries (by decide +kernel)
  have hs : InspectorSettings.ofValue .lax t (.object [(some ("root" : Text), .text "/r")]) = .ok (.valid s) := by rfl
  have hd : DefaultNames s := ⟨rfl, rfl, rfl, rfl⟩
  have hn : n.OfWords := ⟨by decide, by simp [n]; decide, by simp [n]; decide⟩
  have hdir : t.isDirectory s.classRoot = true := by decide +kernel
  obtain ⟨-, hclasses, -⟩ := qualified_sublist_words hwf hs hd hn (.inr rfl : call = [] ∨ call = "()")
  obtain ⟨l, l', hl, hl', hsub⟩ := hclasses hdir
  have hclass : (classes t s (.ofText ('\\' :: (n.text ++ call)))).value.result =
      .ok [.ofText "/r/cl/C@VK@Post@@take.h"] := by decide +kernel
  rw [hclass, Except.ok.injEq] at hl
  rw [← hl] at hsub
  exact ⟨⟨hwf, hs, hd, hn, hdir⟩, by decide +kernel, by decide +kernel, l', hclass, hl', hsub⟩

end Locate

end GenScope
