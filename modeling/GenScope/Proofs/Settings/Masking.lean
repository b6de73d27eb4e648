import GenScope.Proofs.FileTree.SameButFiles
import GenScope.Proofs.Settings.Loading

/-!
# What loading settings depends on

Values from the command line mask those of the settings file: whatever the file says under their keys,
falsy or not, loading goes the same way (`load_congr_of_masked`). A value that is missing masks nothing
(`load_present`). If no file is asked for, the first one that is found decides, and no other file is looked
into, unless the root names it or a link under one of the names up to the first leads to it
(`load_congr_of_later`).
-/

namespace GenScope

variable {t t' : FileTree} {r : SettingsReaders} {f : FieldReaders} {what value key : Text}
  {members members' : Members}

/-! ### Members and records -/

theorem Members.get?_append (front back : Members) (key : Text) :
    Members.get? (front ++ back) key = (Members.get? back key).or (Members.get? front key) := by
  simp [Members.get?, List.reverse_append, List.find?_append, Option.map_or]

theorem Members.get?_eq_none_iff : members.get? key = none ↔ ∀ m ∈ members, m.1 ≠ some key := by
  simp [Members.get?]

theorem Logged.bind_congr_value {α β : Type} {x : Logged α} {f g : α → Logged β} (h : f x.value = g x.value) :
    x >>= f = x >>= g := by
  show Logged.bind x f = Logged.bind x g
  rw [Logged.bind, Logged.bind, h]

/-! ### Settings in trees that differ in files -/

theorem FileTree.SameButFiles.expandHome_eq (h : FileTree.SameButFiles t t') (p : Path) :
    t'.expandHome p = t.expandHome p := by
  have hhome : t'.homeOf? = t.homeOf? := by
    funext user
    rw [homeOf?, homeOf?, h.home, h.homes]
  unfold expandHome
  rw [hhome]

theorem readDirectory_congr (h : FileTree.SameButFiles t t')
    (hexists : ∀ p, t.expandHome (Path.ofText (Text.trim value)) = .ok p →
      t'.pathExists (t.resolve p) = t.pathExists (t.resolve p)) :
    readDirectory t' what value = readDirectory t what value := by
  unfold readDirectory
  dsimp only
  split
  · rfl
  split
  · rfl
  rw [h.expandHome_eq]
  rcases hhome : t.expandHome (Path.ofText (Text.trim value)) with fault | p
  · rfl
  simp only [bind, Except.bind, h.resolve_eq]
  have hdir := h.isDirectory_eq (t.resolve p)
  have hsome := hexists p hhome
  unfold FileTree.isDirectory at hdir
  unfold FileTree.pathExists at hsome
  cases hshort : FileTree.isShortPath (t.resolve p) with
  | false => simp only [FileTree.ask, hshort, Bool.false_eq_true, if_false]
  | true =>
    simp only [FileTree.ask, hshort, if_true]
    -- both look-ups fail or neither does, and with the same outcome
    rcases hstat : t.stat (t.resolve p) with f | e <;> rcases hstat' : t'.stat (t.resolve p) with f' | e' <;>
      rw [hstat, hstat'] at hdir hsome
    · rcases h.eq_or_notThere hstat hstat' with rfl | ⟨rfl | rfl, rfl | rfl⟩ <;> rfl
    · cases hsome
    · cases hsome
    · dsimp only at hdir ⊢
      rw [hdir]

/-- The members name the directory. -/
def Names (f : FieldReaders) (members : Members) (key value : Text) : Prop :=
  ∃ v, members.get? key = some v ∧ f.text v = .valid value

theorem Members.directory_congr (hget : members'.get? key = members.get? key)
    (hread : ∀ value, Names f members key value → readDirectory t' what value = readDirectory t what value) :
    members'.directory f t' key what = members.directory f t key what := by
  unfold Members.directory Members.required
  rw [hget]
  rcases hkey : members.get? key with _ | v
  · rfl
  · dsimp only
    rcases hv : f.text v with value | issues
    · dsimp only [Checked.inside]
      rw [hread value ⟨v, hkey, hv⟩]
    · rfl

theorem InspectorSettings.ofValue_congr (hget : ∀ key, members'.get? key = members.get? key)
    (hroot : ∀ value, Names f members "root" value → readDirectory t' "Root" value = readDirectory t "Root" value) :
    InspectorSettings.ofValue f t' (.object members') = InspectorSettings.ofValue f t (.object members) := by
  unfold InspectorSettings.ofValue
  simp only [Reader.object, Members.directory_congr (hget _) hroot, Members.optional, hget]

namespace LoadedSettings

theorem ofMembers_congr (hget : ∀ key, members'.get? key = members.get? key)
    (hroot : ∀ value, Names f members "root" value → readDirectory t' "Root" value = readDirectory t "Root" value) :
    ofMembers f t' members' = ofMembers f t members := by
  unfold ofMembers
  rw [hget, InspectorSettings.ofValue_congr hget hroot]

theorem warningsFor_congr (h : FileTree.SameButFiles t t') (s : InspectorSettings) :
    warningsFor t' s = warningsFor t s := by
  have hmap := h.map_found?_eq s.classRoot
  unfold warningsFor found?
  rcases hfound : t.found? s.classRoot with fault | e <;> rcases hfound' : t'.found? s.classRoot with fault' | e' <;>
    rw [hfound, hfound'] at hmap
  · obtain rfl := Except.error.inj hmap
    rfl
  · cases hmap
  · cases hmap
  · have hany : e'.any Entry.isDirectory = e.any Entry.isDirectory := Except.ok.inj hmap
    simp only [Except.mapError, bind, Except.bind, hany]

/-! ### Masked members -/

variable {overrides : List (Text × Value)} {given given' : Option Text} {directories directories' : List Path}
  {file file' : Option Path}

/-- The overrides that have a value. -/
def present (overrides : List (Text × Value)) : List (Text × Value) :=
  overrides.filter fun o => match o.2 with
    | .null => false
    | _ => true

/-- A value from the command line stands in front of what the file says under the key. -/
def Masks (overrides : List (Text × Value)) (key : Text) : Prop := ∃ v, (key, v) ∈ overrides ∧ v ≠ .null

theorem mem_present_iff {o : Text × Value} : o ∈ present overrides ↔ o ∈ overrides ∧ o.2 ≠ .null := by
  rw [present, List.mem_filter]
  refine and_congr_right fun _ => ?_
  cases o.2 <;> simp

theorem present_present (overrides : List (Text × Value)) : present (present overrides) = present overrides := by
  rw [present, present, List.filter_filter]
  congr 1
  funext o
  rw [Bool.and_self]

theorem override_eq_append : override members overrides =
    members ++ (present overrides).map fun o => (some o.1, o.2) := by
  induction overrides generalizing members with
  | nil => exact (List.append_nil members).symm
  | cons o rest ih =>
    obtain ⟨key, v⟩ := o
    rw [override, List.foldl_cons, ← override, ih]
    cases v <;> first | rfl | exact List.append_assoc members [_] _

theorem get?_override_congr (hget : ∀ key, ¬ Masks overrides key → members'.get? key = members.get? key) (key : Text) :
    (override members' overrides).get? key = (override members overrides).get? key := by
  rw [override_eq_append, override_eq_append, Members.get?_append, Members.get?_append]
  rcases hmasked : Members.get? ((present overrides).map fun o => (some o.1, o.2)) key with _ | v
  · rw [hget key]
    rintro ⟨v, hmem, hv⟩
    have hpresent := mem_present_iff.2 ⟨hmem, hv⟩
    exact Members.get?_eq_none_iff.1 hmasked (some key, v) (List.mem_map.2 ⟨(key, v), hpresent, rfl⟩) rfl
  · rw [hmasked]
    rfl

theorem load_present : load r t given (present overrides) directories = load r t given overrides directories := by
  have hoverride (members : Members) : override members (present overrides) = override members overrides := by
    rw [override_eq_append, override_eq_append, present_present]
  unfold load
  simp only [hoverride]

/-- Files that say the same but for masked members give the same settings, warnings and failures. -/
theorem load_congr_of_masked (h : FileTree.SameButFiles t t')
    (hsome : ∀ loc, (t'.get? loc).isSome = (t.get? loc).isSome)
    (hread : membersRead r t given directories = .ok (file, members))
    (hread' : membersRead r t' given' directories' = .ok (file', members'))
    (hget : ∀ key, ¬ Masks overrides key → members'.get? key = members.get? key) :
    (load r t' given' overrides directories').value.map (fun l => (l.settings, l.warnings)) =
      (load r t given overrides directories).value.map fun l => (l.settings, l.warnings) := by
  have hmembers : ofMembers r.fields t' (override members' overrides) =
      ofMembers r.fields t (override members overrides) := by
    refine ofMembers_congr (get?_override_congr hget) fun value _ => readDirectory_congr h fun p _ => ?_
    exact h.pathExists_eq fun loc _ => hsome loc
  rw [load_value, load_value, hread, hread']
  dsimp only [Except.bind]
  rw [hmembers]
  rcases ofMembers r.fields t (override members overrides) with f | s
  · rfl
  · dsimp only
    rw [warningsFor_congr h]
    cases warningsFor t s <;> rfl

/-! ### Files under later names -/

variable {before after : List Path} {first : Path} {place : Location}

/-- It is found out whether a path leads to a file. -/
def FindsFile (t : FileTree) (p : Path) (isFile : Bool) : Prop :=
  ∃ e, t.found? p = .ok e ∧ e.any Entry.isFile = isFile

/-- A file is found under one of the names, and neither its name nor one in front of it leads to the place. -/
def FoundApart (t : FileTree) (directories : List Path) (place : Location) : Prop :=
  ∃ before first after, (directories.flatMap fun d => fileNames.map d.child) = before ++ first :: after ∧
    (∀ p ∈ before, FindsFile t p false) ∧ FindsFile t first true ∧ ∀ p ∈ before ++ [first], t.landing p ≠ .ok place

/-- The root that the members name leads to the place. -/
def RootLeadsTo (f : FieldReaders) (t : FileTree) (members : Members) (place : Location) : Prop :=
  ∃ value p, Names f members "root" value ∧ t.expandHome (Path.ofText (Text.trim value)) = .ok p ∧
    t.landing (t.resolve p) = .ok place

theorem firstFile_eq_some (hbefore : ∀ p ∈ before, FindsFile t p false) (hfirst : FindsFile t first true) :
    firstFile t (before ++ first :: after) = .ok (some first) := by
  induction before with
  | nil =>
    obtain ⟨e, hfound, he⟩ := hfirst
    cases e with
    | none => cases he
    | some e =>
      have he : e.isFile = true := he
      simp [firstFile, found?, hfound, Except.mapError, bind, Except.bind, he]
  | cons p before ih =>
    rw [List.forall_mem_cons] at hbefore
    obtain ⟨⟨e, hfound, he⟩, hbefore⟩ := hbefore
    rw [List.cons_append, firstFile, found?, hfound]
    cases e with
    | none => exact ih hbefore
    | some e =>
      have he : e.isFile = false := he
      simp only [Except.mapError, bind, Except.bind, he, Bool.false_eq_true, if_false]
      exact ih hbefore

theorem findFile_eq_some (hnames : (directories.flatMap fun d => fileNames.map d.child) = before ++ first :: after)
    (hbefore : ∀ p ∈ before, FindsFile t p false) (hfirst : FindsFile t first true) :
    findFile t directories = .ok (some first) := by
  rw [findFile, hnames]
  exact firstFile_eq_some hbefore hfirst

theorem FindsFile.isFile {p : Path} (h : FindsFile t p true) : t.isFile p = true := by
  obtain ⟨e, hfound, he⟩ := h
  cases e with
  | none => cases he
  | some e => exact FileTree.isFile_iff.2 ⟨e, (FileTree.found?_eq_some_iff.1 hfound).2.2, he⟩

theorem FindsFile.congr {p : Path} {isFile : Bool} (h : FileTree.SameButFiles t t')
    (hp : ∀ loc, t.landing p = .ok loc → t'.get? loc = t.get? loc) (hfound : FindsFile t p isFile) :
    FindsFile t' p isFile := by
  obtain ⟨e, hfound, he⟩ := hfound
  exact ⟨e, by rw [h.found?_eq hp, hfound], he⟩

theorem readFile_congr (hread : t'.read first = t.read first) : readFile r t' first = readFile r t first := by
  unfold readFile
  rw [hread]

theorem readGivenOrFound_congr (h : FileTree.SameButFiles t t') (hplace : ∀ loc, loc ≠ place → t'.get? loc = t.get? loc)
    (hfound : FoundApart t directories place) :
    readGivenOrFound r t' none directories = readGivenOrFound r t none directories := by
  obtain ⟨before, first, after, hnames, hbefore, hfirst, hother⟩ := hfound
  have hseen : ∀ p ∈ before ++ [first], ∀ loc, t.landing p = .ok loc → t'.get? loc = t.get? loc := by
    intro p hp loc hland
    refine hplace loc ?_
    rintro rfl
    exact hother p hp hland
  have hmem : first ∈ before ++ [first] := List.mem_append_right _ (List.mem_singleton_self first)
  have hbefore' : ∀ p ∈ before, FindsFile t' p false := fun p hp =>
    (hbefore p hp).congr h (hseen p (List.mem_append_left _ hp))
  have hfirst' : FindsFile t' first true := hfirst.congr h (hseen first hmem)
  unfold readGivenOrFound
  dsimp only
  rw [findFile_eq_some hnames hbefore hfirst, findFile_eq_some hnames hbefore' hfirst']
  dsimp only
  rw [readFile_congr (h.read_eq_of_isFile (hseen first hmem) hfirst.isFile)]

theorem load_congr (h : FileTree.SameButFiles t t')
    (hread : readGivenOrFound r t' (givenPath? given) directories = readGivenOrFound r t (givenPath? given) directories)
    (hmembers : ∀ file members, membersRead r t given directories = .ok (file, members) →
      ofMembers r.fields t' (override members overrides) = ofMembers r.fields t (override members overrides)) :
    load r t' given overrides directories = load r t given overrides directories := by
  unfold load
  dsimp only
  rw [← givenPath?, hread]
  refine Logged.bind_congr_value ?_
  rcases hvalue : (readGivenOrFound r t (givenPath? given) directories).value with f | ⟨file, members⟩
  · rfl
  dsimp only
  rw [hmembers file members hvalue]
  simp only [warningsFor_congr h]

/-- A file that is neither the first one found nor named by the root changes nothing, whether it is added,
removed or altered. -/
theorem load_congr_of_later (h : FileTree.SameButFiles t t') (hplace : ∀ loc, loc ≠ place → t'.get? loc = t.get? loc)
    (hgiven : givenPath? given = none) (hfound : FoundApart t directories place)
    (hroot : ∀ file members, membersRead r t given directories = .ok (file, members) →
      ¬ RootLeadsTo r.fields t (override members overrides) place) :
    load r t' given overrides directories = load r t given overrides directories := by
  refine load_congr h ?_ fun file members hread => ?_
  · rw [hgiven]
    exact readGivenOrFound_congr h hplace hfound
  · refine ofMembers_congr (fun _ => rfl) fun value hvalue => readDirectory_congr h fun p hhome => ?_
    refine h.pathExists_eq fun loc hland => ?_
    rw [hplace loc]
    rintro rfl
    exact hroot file members hread ⟨value, p, hvalue, hhome, hland⟩

/-! ### What loading depends on -/

theorem exists_membersRead {keys : List (Option Text)}
    (hkeys : (membersRead r t given directories).map (fun x => x.2.map Prod.fst) = .ok keys) :
    ∃ file members, membersRead r t given directories = .ok (file, members) ∧
      ∀ key, some key ∉ keys → members.get? key = none := by
  rcases hread : membersRead r t given directories with f | ⟨file, members⟩
  · rw [hread] at hkeys
    cases hkeys
  · rw [hread] at hkeys
    obtain rfl : members.map Prod.fst = keys := Except.ok.inj hkeys
    refine ⟨file, members, rfl, fun key hkey => Members.get?_eq_none_iff.2 fun m hm heq => hkey ?_⟩
    exact List.mem_map.2 ⟨m, hm, heq⟩

/-- Files that differ in masked members only, found or asked for, in one tree or in two that differ in what
their files hold, give the same settings with the same warnings, or the same failure; overrides without a
value have no effect; and if no file is asked for, it changes nothing at all, records included, to add,
remove or alter a file, unless one of the names up to the first file that is found leads to it or the root
does. -/
theorem load_depends_on_unmasked (r : SettingsReaders) (t : FileTree) (overrides : List (Text × Value)) (directories : List Path) :
    (∀ t' given given' directories' file file' members members', FileTree.SameButFiles t t' →
      (∀ loc, (t'.get? loc).isSome = (t.get? loc).isSome) →
      membersRead r t given directories = .ok (file, members) →
      membersRead r t' given' directories' = .ok (file', members') →
      (∀ key, ¬ Masks overrides key → members'.get? key = members.get? key) →
      (load r t' given' overrides directories').value.map (fun l => (l.settings, l.warnings)) =
        (load r t given overrides directories).value.map fun l => (l.settings, l.warnings)) ∧
    (∀ given, load r t given (present overrides) directories = load r t given overrides directories) ∧
    ∀ t' given place, FileTree.SameButFiles t t' → (∀ loc, loc ≠ place → t'.get? loc = t.get? loc) →
      givenPath? given = none → FoundApart t directories place →
      (∀ file members, membersRead r t given directories = .ok (file, members) →
        ¬ RootLeadsTo r.fields t (override members overrides) place) →
      load r t' given overrides directories = load r t given overrides directories := by
  refine ⟨?_, fun given => load_present, ?_⟩
  · intro t' given given' directories' file file' members members' h hsome hread hread' hget
    exact load_congr_of_masked h hsome hread hread' hget
  · intro t' given place h hplace hgiven hfound hroot
    exact load_congr_of_later h hplace hgiven hfound hroot

/-- With the root on the command line, the roots of two files do not matter, of which one is not even a
text; and an empty file under an earlier name hides one that could not be read. -/
theorem load_depends_on_unmasked_root :
    let t : FileTree := ⟨[(["a.yaml"], .file (Utf8.encode "root: /gone\n")),
      (["b.yaml"], .file (Utf8.encode "root: no\n")), (["cwd"], .directory),
      (["cwd", ".kphp-inspector.yml"], .file []), (["home"], .directory), (["out"], .directory)],
      by decide +kernel, [], [], []⟩
    let overrides : List (Text × Value) := [("root", .text "/out"), ("debug", .null)]
    let directories : List Path := [⟨.top, ["cwd"]⟩, ⟨.top, ["home"]⟩]
    let place : Location := ["home", "kphp-inspector.yaml"]
    let t' := t.insert place (.file [0xff])
    ((∃ file file' members members', membersRead .lax t (some "/a.yaml") [] = .ok (file, members) ∧
        membersRead .lax t (some "/b.yaml") [] = .ok (file', members') ∧
        ∀ key, ¬ Masks overrides key → members'.get? key = members.get? key) ∧
      FileTree.SameButFiles t t' ∧ (∀ loc, loc ≠ place → t'.get? loc = t.get? loc) ∧
      FoundApart t directories place ∧
      ∀ file members, membersRead .lax t none directories = .ok (file, members) →
        ¬ RootLeadsTo .lax t (override members overrides) place) ∧
    (load .lax t (some "/b.yaml") overrides []).value.map (fun l => (l.settings, l.warnings)) =
      (load .lax t (some "/a.yaml") overrides []).value.map (fun l => (l.settings, l.warnings)) ∧
    load .lax t (some "/a.yaml") (present overrides) [] = load .lax t (some "/a.yaml") overrides [] ∧
    load .lax t' none overrides directories = load .lax t none overrides directories := by
  intro t overrides directories place t'
  have hmask : Masks overrides "root" := ⟨.text "/out", List.mem_cons_self, by rintro ⟨⟩⟩
  have hroots : ∀ key : Text, ¬ Masks overrides key → some key ∉ [some ("root" : Text)] := by
    intro key hkey hmem
    exact hkey (Option.some.inj (List.mem_singleton.1 hmem) ▸ hmask)
  have hkeys : (membersRead .lax t (some "/a.yaml") []).map (fun x => x.2.map Prod.fst) =
      .ok [some ("root" : Text)] := by
    decide +kernel
  have hkeys' : (membersRead .lax t (some "/b.yaml") []).map (fun x => x.2.map Prod.fst) =
      .ok [some ("root" : Text)] := by
    decide +kernel
  obtain ⟨file, members, hread, hnone⟩ := exists_membersRead hkeys
  obtain ⟨file', members', hread', hnone'⟩ := exists_membersRead hkeys'
  have hget : ∀ key, ¬ Masks overrides key → members'.get? key = members.get? key := fun key hkey => by
    rw [hnone key (hroots key hkey), hnone' key (hroots key hkey)]
  have hwritten : FileTree.WrittenAt t (· = place) t' := .insert (.of_none (by decide +kernel)) _
  have hsame : FileTree.SameButFiles t t' := ⟨hwritten.toSameWays, rfl, rfl⟩
  have hplace : ∀ loc, loc ≠ place → t'.get? loc = t.get? loc :=
    fun loc h => hwritten.outside h
  have hfound : FoundApart t directories place :=
    ⟨[⟨.top, ["cwd", ".kphp-inspector.yaml"]⟩], ⟨.top, ["cwd", ".kphp-inspector.yml"]⟩, _, rfl,
      fun p hp => ⟨none, by
        obtain rfl := List.mem_singleton.1 hp
        decide +kernel, rfl⟩, ⟨some (.file []), by decide +kernel, rfl⟩, by decide +kernel⟩
  have hroot : ∀ file members, membersRead .lax t none directories = .ok (file, members) →
      ¬ RootLeadsTo .lax t (override members overrides) place := by
    rintro file members - ⟨value, p, ⟨v, hvalue, htext⟩, hhome, hland⟩
    rw [get?_override (by decide +kernel) List.mem_cons_self (by rintro ⟨⟩)] at hvalue
    obtain rfl := Option.some.inj hvalue
    obtain rfl : ("/out" : Text) = value := Checked.valid.inj htext
    have hp : t.expandHome (Path.ofText (Text.trim "/out")) = .ok ⟨.top, ["out"]⟩ := by decide +kernel
    obtain rfl := Except.ok.inj (hp.symm.trans hhome)
    exact absurd hland (by decide +kernel)
  refine ⟨⟨⟨file, file', members, members', hread, hread', hget⟩, hsame, hplace, hfound, hroot⟩, ?_, ?_, ?_⟩
  · exact (load_depends_on_unmasked .lax t overrides []).1 t _ _ [] _ _ _ _ (.refl t) (fun _ => rfl) hread hread' hget
  · exact (load_depends_on_unmasked .lax t overrides []).2.1 _
  · exact (load_depends_on_unmasked .lax t overrides directories).2.2 t' none place hsame hplace rfl hfound hroot

/-- A link under the first name leads to a file under a later one, past a file that is no link. -/
theorem load_follows_link_to_later_file :
    let t : FileTree := ⟨[(["cwd"], .directory),
      (["cwd", ".kphp-inspector.yaml"], .link "../home/kphp-inspector.yaml"),
      (["cwd", "kphp-inspector.yaml"], .file (Utf8.encode "debug: false\n")), (["home"], .directory),
      (["home", "kphp-inspector.yaml"], .file (Utf8.encode "debug: false\n")), (["out"], .directory)],
      by decide +kernel, [], [], []⟩
    let t' := t.insert ["home", "kphp-inspector.yaml"] (.file (Utf8.encode "debug: true\n"))
    let overrides : List (Text × Value) := [("root", .text "/out")]
    let directories : List Path := [⟨.top, ["cwd"]⟩, ⟨.top, ["home"]⟩]
    (load .lax t none overrides directories).value.map (·.settings.debug) = .ok false ∧
    (load .lax t' none overrides directories).value.map (·.settings.debug) = .ok true := by
  decide +kernel

end LoadedSettings

end GenScope
