import GenScope.Proofs.Search.Offered

/-!
# One file for each function

What is kept of a list of files (`functionFiles_one_each`): every source, and every header without a source
of the same stem that is not that of a class. No file is kept twice, and no two files with one stem, because
a file is known by its stem and its kind (`eq_of_fileStem_eq`). The order of the list decides the order of
what is kept and nothing else, since the test of a file asks only which sources are in the list
(`canHoldFunction_congr`).
-/

namespace GenScope.Locate

variable {s : InspectorSettings} {p q : Path} {paths paths' : List Path} {extension : Text}

/-! ### Stems -/

theorem stem_append (h : extension <:+ p.name) : stem p extension ++ extension = p.toText :=
  List.suffix_iff_eq_append.1 (h.trans p.name_isSuffix_toText)

theorem eq_of_stem_eq {text text' : Text} (hp : extension <:+ (Path.ofText text).name)
    (hq : extension <:+ (Path.ofText text').name)
    (h : stem (Path.ofText text) extension = stem (Path.ofText text') extension) :
    Path.ofText text = Path.ofText text' := by
  rw [← Path.toText_ofText_inj, ← stem_append hp, ← stem_append hq, h]

/-! ### What is kept -/

theorem canHoldFunction_congr (h : ∀ src, s.sourceExtension <:+ src.name → (src ∈ paths ↔ src ∈ paths')) :
    canHoldFunction s (sourceStems s paths) p = true ↔ canHoldFunction s (sourceStems s paths') p = true := by
  by_cases hsource : s.sourceExtension <:+ p.name
  · simp only [canHoldFunction_source hsource]
  · rw [canHoldFunction_header_iff hsource, canHoldFunction_header_iff hsource]
    refine and_congr_right fun _ => and_congr_left fun _ => forall_congr' fun src => ?_
    constructor
    · intro hstem hmem hsrc
      exact hstem ((h src hsrc).2 hmem) hsrc
    · intro hstem hmem hsrc
      exact hstem ((h src hsrc).1 hmem) hsrc

theorem mem_functionFiles_of_source (hp : p ∈ paths) (h : s.sourceExtension <:+ p.name) :
    p ∈ functionFiles s paths := mem_functionFiles_iff.2 ⟨hp, canHoldFunction_source h⟩

theorem mem_functionFiles_perm (h : paths'.Perm paths) : p ∈ functionFiles s paths' ↔ p ∈ functionFiles s paths := by
  rw [mem_functionFiles_iff, mem_functionFiles_iff, h.mem_iff]
  exact and_congr_right fun _ => canHoldFunction_congr fun src _ => h.mem_iff

/-- Two files with one stem that are kept are the same: they are of one kind, since a header beside its source
is not kept, and the stem and the kind tell the file. -/
theorem eq_of_fileStem_eq {text text' : Text} (hp : Path.ofText text ∈ functionFiles s paths)
    (hq : Path.ofText text' ∈ functionFiles s paths)
    (h : fileStem s (Path.ofText text) = fileStem s (Path.ofText text')) :
    Path.ofText text = Path.ofText text' := by
  obtain ⟨hpmem, hphold⟩ := mem_functionFiles_iff.1 hp
  obtain ⟨hqmem, hqhold⟩ := mem_functionFiles_iff.1 hq
  by_cases hpsource : s.sourceExtension <:+ (Path.ofText text).name
  · by_cases hqsource : s.sourceExtension <:+ (Path.ofText text').name
    · rw [fileStem_source hpsource, fileStem_source hqsource] at h
      exact eq_of_stem_eq hpsource hqsource h
    · exact absurd h (((canHoldFunction_header_iff hqsource).1 hqhold).2.1 _ hpmem hpsource)
  · obtain ⟨hpheader, hpalone, -⟩ := (canHoldFunction_header_iff hpsource).1 hphold
    by_cases hqsource : s.sourceExtension <:+ (Path.ofText text').name
    · exact absurd h.symm (hpalone _ hqmem hqsource)
    · obtain ⟨hqheader, -⟩ := (canHoldFunction_header_iff hqsource).1 hqhold
      rw [fileStem_header hpsource, fileStem_header hqsource] at h
      exact eq_of_stem_eq hpheader hqheader h

/-! ### The list as a whole -/

theorem functionFiles_functionFiles : functionFiles s (functionFiles s paths) = functionFiles s paths := by
  have hsame : ∀ src, s.sourceExtension <:+ src.name → (src ∈ functionFiles s paths ↔ src ∈ paths) :=
    fun src hsrc => ⟨fun h => (mem_functionFiles_iff.1 h).1, fun h => mem_functionFiles_of_source h hsrc⟩
  have hpass : (functionFiles s paths).filter (canHoldFunction s (sourceStems s (functionFiles s paths))) =
      functionFiles s paths := by
    refine List.filter_eq_self.2 fun p hp => ?_
    exact (canHoldFunction_congr hsame).2 (mem_functionFiles_iff.1 hp).2
  conv_lhs => rw [functionFiles, hpass]
  exact eraseDups_of_nodup (nodup_eraseDups _)

/-- Of a list of files, in its order and once each, the sources are kept, and the headers of which no source
has the stem and that are not those of classes. No two of them have one stem, what is kept is kept again, and
another order of the list gives the same files. -/
theorem functionFiles_one_each (s : InspectorSettings) (texts : List Text) :
    let paths := texts.map Path.ofText
    (functionFiles s paths).Sublist paths ∧ (functionFiles s paths).Nodup ∧
    (∀ p ∈ paths, s.sourceExtension <:+ p.name → p ∈ functionFiles s paths) ∧
    (∀ p ∈ paths, ¬ s.sourceExtension <:+ p.name → (p ∈ functionFiles s paths ↔
      s.headerExtension <:+ p.name ∧
        (∀ src ∈ paths, s.sourceExtension <:+ src.name → fileStem s src ≠ fileStem s p) ∧
        isClassHeader s p = false)) ∧
    (∀ p ∈ functionFiles s paths, ∀ q ∈ functionFiles s paths, fileStem s p = fileStem s q → p = q) ∧
    functionFiles s (functionFiles s paths) = functionFiles s paths ∧
    ∀ paths' : List Path, paths'.Perm paths → ∀ p, p ∈ functionFiles s paths' ↔ p ∈ functionFiles s paths := by
  intro paths
  have hsub : (functionFiles s paths).Sublist paths := (eraseDups_sublist _).trans List.filter_sublist
  refine ⟨hsub, nodup_eraseDups _, fun p hp h => mem_functionFiles_of_source hp h, fun p hp h => ?_, ?_,
    functionFiles_functionFiles, fun paths' hperm p => mem_functionFiles_perm hperm⟩
  · rw [mem_functionFiles_iff, and_iff_right hp, canHoldFunction_header_iff h]
  · intro p hp q hq hstem
    obtain ⟨text, -, rfl⟩ := List.mem_map.1 (hsub.subset hp)
    obtain ⟨text', -, rfl⟩ := List.mem_map.1 (hsub.subset hq)
    exact eq_of_fileStem_eq hp hq hstem

end GenScope.Locate
