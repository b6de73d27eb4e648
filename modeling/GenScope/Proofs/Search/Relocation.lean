import GenScope.Proofs.FileTree.SameBelow
import GenScope.Proofs.Search.Offered

/-!
# Where the tree lives

What a search gives depends on the tree below the root and not on the root itself. If two roots hold
identical trees without links, every query gives the same names below both of them in the same order,
or fails alike (`searches_relocated`). Stems are compared as whole paths, but the paths of one search
all start with its root; words and class marks are looked for below the root only.
-/

namespace GenScope

open FileTree (HoldsSame)

namespace Path

variable {root root' : Path} {names other : List Text} {ext ext' : Text}

theorem name_below_congr (hne : names ≠ []) : (root.below names).name = (root'.below names).name := by
  rcases List.eq_nil_or_concat names with rfl | ⟨dir, name, rfl⟩
  · exact absurd rfl hne
  · rw [List.concat_eq_append, name_below_append, name_below_append]

theorem isBeside_below (hne : names ≠ []) (hne' : other ≠ [])
    (h : IsBeside ext ext' (root.below names) (root.below other)) :
    IsBeside ext ext' (root'.below names) (root'.below other) := by
  obtain ⟨dir, base, hp, hq⟩ := h
  have hchild : ∀ (r : Path) (front : List Text) (name : Text),
      r.below (front ++ [name]) = (r.below front).child name := fun r front name => by
    simp [below, child]
  rcases List.eq_nil_or_concat names with rfl | ⟨front, name, rfl⟩
  · exact absurd rfl hne
  rcases List.eq_nil_or_concat other with rfl | ⟨front', name', rfl⟩
  · exact absurd rfl hne'
  simp only [List.concat_eq_append] at hp hq ⊢
  rw [hchild, child_inj] at hp hq
  obtain ⟨hdir, rfl⟩ := hp
  obtain ⟨hdir', rfl⟩ := hq
  obtain rfl : front = front' := below_inj.1 (hdir.trans hdir'.symm)
  exact ⟨root'.below front, base, hchild .., hchild ..⟩

end Path

/-- Two results of a search are the same from their roots: the same names below them in the same order,
or the same failure. -/
inductive SameFrom (root root' : Path) :
    Except ScanFailure (List Path) → Except ScanFailure (List Path) → Prop
  | found (names : List (List Text)) : SameFrom root root' (.ok (names.map root.below)) (.ok (names.map root'.below))
  | missing (names : List Text) :
      SameFrom root root' (.error (.configuration (.noSearchRoot (root.below names).toText)))
        (.error (.configuration (.noSearchRoot (root'.below names).toText)))
  | notADirectory (names : List Text) :
      SameFrom root root' (.error (.configuration (.searchRootNotADirectory (root.below names).toText)))
        (.error (.configuration (.searchRootNotADirectory (root'.below names).toText)))
  | unanswered (fault : Fault) (names : List Text) :
      SameFrom root root' (.error (.unanswered fault (root.below names).toText))
        (.error (.unanswered fault (root'.below names).toText))

theorem SameFrom.exists_of_ok {root root' : Path} {paths : List Path} {result : Except ScanFailure (List Path)}
    (h : SameFrom root root' (.ok paths) result) :
    ∃ names : List (List Text), paths = names.map root.below ∧ result = .ok (names.map root'.below) := by
  generalize hfirst : Except.ok paths = first at h
  cases h with
  | found names => exact ⟨names, Except.ok.inj hfirst, rfl⟩
  | missing names => cases hfirst
  | notADirectory names => cases hfirst
  | unanswered fault names => cases hfirst

theorem SameFrom.failureAt {t t' : FileTree} {root root' : Path} {names : List Text}
    (h : t.probe (root.below names) = t'.probe (root'.below names)) :
    SameFrom root root' (.error (Scan.failureAt t (root.below names)))
      (.error (Scan.failureAt t' (root'.below names))) := by
  unfold Scan.failureAt
  rw [h]
  split
  · exact .unanswered _ _
  · exact .missing _
  · exact .notADirectory _

namespace Locate

variable {r : FieldReaders} {t t' : FileTree} {s : InspectorSettings} {loc loc' : Location} {root root' : Path}
  {v v' : Value} {q : SearchQuery} {lead text' : Text} {names words : List Text} {c c' : List Text → Prop}

/-! ### Files below two roots -/

open Classical in
theorem filter_filesBelow (hf : t.follow root = .ok loc) (hdir : t.get? loc = some .directory)
    (c : List Text → Prop) : ((t.filesBelow root).filter fun p => ∃ names, p = root.below names ∧ c names) =
      ((t.namesBelow loc).filter fun names => c names).map root.below := by
  rw [FileTree.filesBelow_eq_map hf hdir, List.filter_map]
  refine congrArg (List.map root.below) (List.filter_congr fun names _ => ?_)
  rw [Function.comp_apply, decide_eq_decide]
  constructor
  · rintro ⟨names', heq, hc⟩
    rwa [Path.below_inj.1 heq]
  · exact fun hc => ⟨names, rfl, hc⟩

open Classical in
/-- The same condition on the names below two roots keeps the same names. -/
theorem exists_names_of_filter (h : HoldsSame t root loc t' root' loc') (hc : ∀ names, c names ↔ c' names) :
    ∃ kept : List (List Text),
      ((t.filesBelow root).filter fun p => ∃ names, p = root.below names ∧ c names) = kept.map root.below ∧
      ((t'.filesBelow root').filter fun p => ∃ names, p = root'.below names ∧ c' names) =
        kept.map root'.below := by
  obtain rfl : c = c' := funext fun names => propext (hc names)
  refine ⟨_, filter_filesBelow h.follow h.directory c, ?_⟩
  rw [filter_filesBelow h.follow' h.symm.directory, h.namesBelow_eq]

theorem finds_relocated (h : HoldsSame t root loc t' root' loc')
    (hp : t.Finds root lead q (root.below names)) : t'.Finds root' lead q (root'.below names) := by
  have hne := h.wellFormed.ne_nil_of_mem_filesBelow hp.1
  have hname : (root.below names).name = (root'.below names).name := Path.name_below_congr hne
  exact ⟨h.mem_filesBelow hp.1, hname ▸ hp.2⟩

/-! ### Candidates below two roots -/

theorem IsFunctionCandidate.relocated (h : HoldsSame t s.rootPath loc t' (Path.ofText text') loc')
    (hc : IsFunctionCandidate t s (t.Finds s.rootPath [] q) words names) :
    IsFunctionCandidate t' { s with root := text' } (t'.Finds (Path.ofText text') [] q) words names where
  isFound := finds_relocated h hc.isFound
  hasWords := hc.hasWords
  kind := by
    have hne := h.wellFormed.ne_nil_of_mem_filesBelow hc.isFound.1
    have hname : (s.rootPath.below names).name = ((Path.ofText text').below names).name := Path.name_below_congr hne
    have hkind := hc.kind
    rw [hname] at hkind
    refine hkind.imp_right ?_
    rintro ⟨hheader, hsources, hmark⟩
    refine ⟨hheader, fun src hsrc hbeside => ?_, hmark⟩
    -- what is found below the other root is found below this one
    obtain ⟨other, hother, rfl, -⟩ := h.wellFormed'.exists_below_of_mem hsrc.1
    exact hsources _ (finds_relocated h.symm hsrc) (Path.isBeside_below hne hother hbeside)
  definition := by
    obtain ⟨_, _, heq, hproper⟩ := h.wellFormed.exists_below_of_mem hc.isFound.1
    obtain rfl := Path.below_inj.1 heq
    obtain ⟨content, hread, htext⟩ := hc.definition
    rw [h.read_eq fun hm => (hproper _ hm).dots rfl] at hread
    exact ⟨content, hread, htext⟩

theorem IsClassCandidate.relocated
    (h : HoldsSame t s.classRoot loc t' (InspectorSettings.classRoot { s with root := text' }) loc')
    (hc : IsClassCandidate s (t.Finds s.classRoot lead q) words names) :
    IsClassCandidate { s with root := text' }
      (t'.Finds (InspectorSettings.classRoot { s with root := text' }) lead q) words names where
  isFound := finds_relocated h hc.isFound
  hasWords := hc.hasWords
  kind := by
    have hne := h.wellFormed.ne_nil_of_mem_filesBelow hc.isFound.1
    have hname : (s.classRoot.below names).name =
      ((InspectorSettings.classRoot { s with root := text' }).below names).name := Path.name_below_congr hne
    exact hname ▸ hc.kind

/-! ### Searches -/

theorem classRoot_eq_below (h : IsEntryName s.classSubdir) : s.classRoot = s.rootPath.below [s.classSubdir] := by
  have hpath : Path.ofText s.classSubdir = ⟨.relative, [s.classSubdir]⟩ := by
    have : Path.ofText (Path.toText ⟨.relative, [s.classSubdir]⟩) = ⟨.relative, [s.classSubdir]⟩ :=
      Path.ofText_toText_relative (by simpa using h)
    simpa [Path.toText, Path.Anchor.written] using this
  rw [InspectorSettings.classRoot, hpath]
  rfl

theorem functions_relocated (hs : InspectorSettings.ofValue r t v = .ok (.valid s))
    (hs' : InspectorSettings.ofValue r t' v' = .ok (.valid { s with root := text' }))
    (h : HoldsSame t s.rootPath loc t' (Path.ofText text') loc') (q : SearchQuery) :
    ∃ names : List (List Text), (functions t s q).value.result = .ok (names.map s.rootPath.below) ∧
      (functions t' { s with root := text' } q).value.result = .ok (names.map (Path.ofText text').below) := by
  classical
  have hc : ∀ names, IsFunctionCandidate t s (t.Finds s.rootPath [] q) q.words names ↔
      IsFunctionCandidate t' { s with root := text' } (t'.Finds (Path.ofText text') [] q) q.words names :=
    fun names => ⟨fun hc => hc.relocated h, fun hc => hc.relocated (s := { s with root := text' }) h.symm⟩
  obtain ⟨kept, hkept, hkept'⟩ := exists_names_of_filter h hc
  exact ⟨kept, by rw [functions_eq_filter h.wellFormed hs, hkept],
    by rw [functions_eq_filter h.wellFormed' hs']; exact congrArg Except.ok hkept'⟩

theorem classes_relocated_of_isDirectory (h : HoldsSame t s.rootPath loc t' (Path.ofText text') loc')
    (hroot : s.classRoot = s.rootPath.below names)
    (hroot' : InspectorSettings.classRoot { s with root := text' } = (Path.ofText text').below names)
    (hdir : t.get? (loc ++ names) = some .directory) (q : SearchQuery) :
    ∃ kept : List (List Text), (classes t s q).value.result = .ok (kept.map s.rootPath.below) ∧
      (classes t' { s with root := text' } q).value.result = .ok (kept.map (Path.ofText text').below) := by
  classical
  have hbelow := h.below hdir
  rw [← hroot, ← hroot'] at hbelow
  have hc : ∀ names, IsClassCandidate s (t.Finds s.classRoot s.classFileLead q) q.words names ↔
      IsClassCandidate { s with root := text' } (t'.Finds (InspectorSettings.classRoot { s with root := text' })
        s.classFileLead q) q.words names :=
    fun names => ⟨fun hc => hc.relocated hbelow, fun hc => hc.relocated (s := { s with root := text' }) hbelow.symm⟩
  obtain ⟨kept, hkept, hkept'⟩ := exists_names_of_filter hbelow hc
  have hmap : ∀ (p root : Path), p = root.below names →
      kept.map p.below = (kept.map (names ++ ·)).map root.below := by
    rintro p root rfl
    rw [List.map_map]
    exact List.map_congr_left fun rest _ => by simp [Path.below]
  refine ⟨kept.map (names ++ ·), ?_, ?_⟩
  · rw [classes_eq_filter h.wellFormed (FileTree.isDirectory_of_follow hbelow.follow hbelow.directory), hkept,
      hmap _ _ hroot]
  · rw [classes_eq_filter h.wellFormed' (FileTree.isDirectory_of_follow hbelow.follow' hbelow.symm.directory),
      ← hmap _ _ hroot']
    exact congrArg Except.ok hkept'

theorem classes_relocated (hsubdir : IsEntryName s.classSubdir)
    (h : HoldsSame t s.rootPath loc t' (Path.ofText text') loc') (q : SearchQuery) :
    SameFrom s.rootPath (Path.ofText text') (classes t s q).value.result
      (classes t' { s with root := text' } q).value.result := by
  have hroot := classRoot_eq_below hsubdir
  have hroot' : InspectorSettings.classRoot { s with root := text' } = (Path.ofText text').below [s.classSubdir] :=
    classRoot_eq_below (s := { s with root := text' }) hsubdir
  have hdots : ['.', '.'] ∉ [s.classSubdir] := by simpa using hsubdir.dots.symm
  cases hplan : plan s.classFileLead q with
  | none =>
    rw [classes_of_plan_none hplan, classes_of_plan_none (s := { s with root := text' }) hplan]
    exact .found []
  | some pl =>
    cases hdir : t.isDirectory s.classRoot with
    | true =>
      obtain ⟨e, hstat, he⟩ := FileTree.isDirectory_iff.1 hdir
      rcases Entry.isDirectory_iff.1 he with rfl | rfl
      · rw [hroot, FileTree.stat_below_iff h.wellFormed h.follow h.directory h.linkFree hdots] at hstat
        obtain ⟨kept, hfound, hfound'⟩ := classes_relocated_of_isDirectory h hroot hroot' hstat q
        rw [hfound, hfound']
        exact .found kept
      · have hstat' : t'.stat (InspectorSettings.classRoot { s with root := text' }) = .ok .closed := by
          rw [hroot', ← h.stat_eq hdots, ← hroot, hstat]
        rw [classes_of_closed hplan hstat, classes_of_closed (s := { s with root := text' }) hplan hstat']
        exact .found []
    | false =>
      have hdir' : t'.isDirectory (InspectorSettings.classRoot { s with root := text' }) = false := by
        rw [hroot', ← h.isDirectory_eq hdots, ← hroot, hdir]
      rw [classes_eq_error hplan hdir, classes_eq_error (s := { s with root := text' }) hplan hdir', hroot, hroot']
      exact .failureAt (h.probe_eq hdots)

/-- Two roots that hold identical trees without links, under settings that are equal but for the root,
give the same names below them for every query, in the same order; so do searches for a class, or they
fail alike. -/
theorem searches_relocated (hs : InspectorSettings.ofValue r t v = .ok (.valid s))
    (hs' : InspectorSettings.ofValue r t' v' = .ok (.valid { s with root := text' }))
    (hsubdir : IsEntryName s.classSubdir) (h : HoldsSame t s.rootPath loc t' (Path.ofText text') loc')
    (q : SearchQuery) :
    (∃ names : List (List Text), (functions t s q).value.result = .ok (names.map s.rootPath.below) ∧
      (functions t' { s with root := text' } q).value.result = .ok (names.map (Path.ofText text').below)) ∧
    SameFrom s.rootPath (Path.ofText text') (classes t s q).value.result
      (classes t' { s with root := text' } q).value.result :=
  ⟨functions_relocated hs hs' h q, classes_relocated hsubdir h q⟩

/-- The path of the second root holds both words and a class mark, of which the searches below it see
nothing. -/
theorem searches_relocated_marked :
    let t : FileTree := ⟨[(["a"], .directory), (["a", "cl"], .directory), (["a", "cl", "C@Post.h"], .file []),
      (["a", "cl", "post.cpp"], .file (Utf8.encode "int f$a()")), (["a", "post.h"], .file (Utf8.encode "int f$a()")),
      (["cl"], .directory), (["cl", "C@post"], .directory), (["cl", "C@post", "cl"], .directory),
      (["cl", "C@post", "cl", "C@Post.h"], .file []),
      (["cl", "C@post", "cl", "post.cpp"], .file (Utf8.encode "int f$a()")),
      (["cl", "C@post", "post.h"], .file (Utf8.encode "int f$a()"))], by decide +kernel, [], [], []⟩
    let s : InspectorSettings := ⟨"/a", "cl", "C@", ".cpp", ".h", false⟩
    let text : Text := "/cl/C@post"
    let q := SearchQuery.ofText "post cl"
    let q' := SearchQuery.ofText "post"
    (InspectorSettings.ofValue .lax t (.object [(some ("root" : Text), .text s.root)]) = .ok (.valid s) ∧
      InspectorSettings.ofValue .lax t (.object [(some ("root" : Text), .text text)]) =
        .ok (.valid { s with root := text }) ∧
      IsEntryName s.classSubdir ∧ HoldsSame t s.rootPath ["a"] t (Path.ofText text) ["cl", "C@post"]) ∧
    (functions t s q).value.result = .ok [.ofText "/a/cl/post.cpp"] ∧
    (functions t { s with root := text } q).value.result = .ok [.ofText "/cl/C@post/cl/post.cpp"] ∧
    (classes t s q').value.result = .ok [.ofText "/a/cl/C@Post.h"] ∧
    (classes t { s with root := text } q').value.result = .ok [.ofText "/cl/C@post/cl/C@Post.h"] := by
  intro t s text q q'
  have hs : InspectorSettings.ofValue .lax t (.object [(some ("root" : Text), .text s.root)]) = .ok (.valid s) := by rfl
  have hs' : InspectorSettings.ofValue .lax t (.object [(some ("root" : Text), .text text)]) =
      .ok (.valid { s with root := text }) := by rfl
  have hsubdir : IsEntryName s.classSubdir := by decide
  have hwf : t.WellFormed := .of_entries (by decide +kernel)
  have h : HoldsSame t s.rootPath ["a"] t (Path.ofText text) ["cl", "C@post"] := by
    exact ⟨hwf, hwf, by decide +kernel, by decide +kernel, by decide +kernel, .of_entries (by simp [t]),
      by decide +kernel, by decide +kernel⟩
  have hinj : Function.Injective (List.map s.rootPath.below) :=
    List.map_injective_iff.2 fun _ _ heq => Path.below_inj.1 heq
  have hfunctions : (functions t s q).value.result =
      .ok (([["cl", "post.cpp"]] : List (List Text)).map s.rootPath.below) := by decide +kernel
  have hclasses : (classes t s q').value.result =
      .ok (([["cl", "C@Post.h"]] : List (List Text)).map s.rootPath.below) := by decide +kernel
  obtain ⟨⟨names, hfound, hfound'⟩, -⟩ := searches_relocated hs hs' hsubdir h q
  obtain rfl := hinj (Except.ok.inj (hfunctions.symm.trans hfound))
  obtain ⟨-, hsame⟩ := searches_relocated hs hs' hsubdir h q'
  rw [hclasses] at hsame
  obtain ⟨names, hnames, hclasses'⟩ := hsame.exists_of_ok
  obtain rfl := hinj hnames
  exact ⟨⟨hs, hs', hsubdir, h⟩, by rw [hfunctions]; decide +kernel, by rw [hfound']; decide +kernel,
    by rw [hclasses]; decide +kernel, by rw [hclasses']; decide +kernel⟩

end Locate

end GenScope
