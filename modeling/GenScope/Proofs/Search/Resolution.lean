import GenScope.Proofs.Cpp.Signature
import GenScope.Proofs.Query.Demangling
import GenScope.Proofs.Search.Candidates
import GenScope.Proofs.Settings.Directory

/-!
# Resolution of qualified names

In a tree that keeps every function in a file named for it (`HoldsFunctions`), a query for the
qualified name of a function gives its one file, and the name that is read from the file is the name
that was asked for (`functions_resolve`). Sources beside headers, class headers and files under other
names do not disturb this.
-/

namespace GenScope

open Text (isWordChar IsWholeLines)

/-- A file that defines a function: where it lies below the root, and what it holds. -/
structure FunctionFile where
  name : QualifiedName
  directory : List Text
  extension : Text
  /-- The text before the line of the definition. -/
  before : Text
  /-- The text before the identifier. -/
  type : Text
  parameters : Text
  /-- The text behind the opening brace. -/
  rest : Text

namespace FunctionFile

variable {f g : FunctionFile}

def path (f : FunctionFile) : List Text := f.directory ++ [f.name.stem ++ f.extension]

/-- The header that may lie beside a source. -/
def header (f : FunctionFile) : List Text := f.directory ++ [f.name.stem ++ ".h"]

def line (f : FunctionFile) : Cpp.DefinitionLine :=
  ⟨false, f.type, functionLead, f.name.mangled, f.parameters, true⟩

def text (f : FunctionFile) : Text := f.before ++ (f.line.text ++ f.rest)

/-- The file is a source or a header in no class directory and holds a plain definition behind whole
lines without an opening brace. -/
structure WellFormed (f : FunctionFile) : Prop where
  name : f.name.OfWords
  directory : ("cl" : Text) ∉ f.directory
  extension : f.extension = ".cpp" ∨ f.extension = ".h"
  marker : ¬ Cpp.resumableMarker <:+: f.text
  lines : IsWholeLines f.before
  brace : '{' ∉ f.before
  type_head : ∃ c, f.type.head? = some c ∧ isWordChar c = true
  type_line : '\n' ∉ f.type
  type_plain : ¬ functionLead <:+: f.type
  parameters_line : '\n' ∉ f.parameters
  parameters_brace : '{' ∉ f.parameters

/-- The type goes on a declaration that the line before has begun. -/
def IsContinued (f : FunctionFile) : Prop :=
  Cpp.BeginsDeclaration functionLead f.before ∧ Cpp.ClosesDeclaration f.type

theorem WellFormed.line (h : f.WellFormed) : f.line.WellFormed := by
  obtain ⟨c, s, hs, -⟩ := h.name.written_eq_cons '$' "$$"
  refine ⟨.inl rfl, h.type_head, h.type_line, h.type_plain, ?_, ?_, h.parameters_line, h.parameters_brace⟩
  · show f.name.mangled ≠ []
    rw [QualifiedName.mangled, hs]; simp
  · refine h.name.forall_written (p := fun c => Text.isIdentChar c = true) (by decide) (by simp; decide) ?_
    exact fun c hc => Text.isIdentChar_of_isWordChar (isWordChar_of_isNameChar hc)

theorem WellFormed.isPlainIn (h : f.WellFormed) (hc : ¬ f.IsContinued) :
    f.line.IsPlainIn f.before f.rest f.text :=
  ⟨rfl, h.marker, h.lines, h.brace, hc⟩

theorem holdsFunction_text (f : FunctionFile) : Locate.holdsFunction f.text = true := by
  have htext : f.text = f.before ++ (f.line.head ++ ' ' :: f.line.call f.rest) := by
    rw [text, Cpp.DefinitionLine.text_append]
  have hlead : (' ' :: functionLead) <:+: f.text :=
    ⟨f.before ++ f.line.head, f.line.name ++ '(' :: (f.parameters ++ ')' :: (f.line.gap ++ '{' :: f.rest)), by
      simp [htext, Cpp.DefinitionLine.call, FunctionFile.line]⟩
  have hbracket : '(' ∈ f.text := by simp [htext, Cpp.DefinitionLine.call]
  rw [Locate.holdsFunction, Text.occursIn_iff.2 hlead]
  simpa using hbracket

/-! ### File names -/

theorem isPrefix_lower_name (hf : f.name.OfWords) {extension : Text}
    (he : extension = ".cpp" ∨ extension = ".h") :
    Text.lower (f.name.stem ++ ".") <+: Text.lower (f.name.stem ++ extension) := by
  rcases he with rfl | rfl
  · rw [hf.lower_stem_append (by simp), hf.lower_stem_append (by simp), List.prefix_append_right_inj]
    decide
  · rw [hf.lower_stem_append (by simp), hf.lower_stem_append (by simp), List.prefix_append_right_inj]
    decide

theorem lower_text_eq_of_isPrefix {extension : Text} (hf : f.name.OfWords) (hg : g.name.OfWords)
    (he : extension = ".cpp" ∨ extension = ".h")
    (h : Text.lower (f.name.stem ++ ".") <+: Text.lower (g.name.stem ++ extension)) :
    Text.lower f.name.text = Text.lower g.name.text := by
  obtain ⟨tail, hext, htail, hascii⟩ : ∃ tail, Text.lower extension = '.' :: tail ∧ '.' ∉ tail ∧
      ∀ c ∈ extension, c.toNat < 128 := by
    rcases he with rfl | rfl
    · exact ⟨"cpp", by decide, by decide, by simp⟩
    · exact ⟨"h", by decide, by decide, by simp⟩
  rw [hf.lower_stem_append (by simp), hg.lower_stem_append hascii, hext] at h
  obtain ⟨rest, hrest⟩ := h
  have hcut : Text.lower f.name.stem ++ '.' :: rest = Text.lower g.name.stem ++ '.' :: tail := by
    rw [← hrest, show Text.lower "." = ['.'] by decide]; simp
  have hsame := (List.append_cons_inj_of_notMem hg.dot_not_mem_lower_stem htail).1 hcut.symm
  exact QualifiedName.lower_text_eq_of_lower_stem_eq hf hg hsame.1.symm

end FunctionFile

/-! ### Trees of functions -/

/-- Below the root the functions have one file each, functions that differ only in case being the
same. Beside a source its header may lie, class headers lie in the class directory, and no other
file has a name that starts, up to case, with the stem of a function and a dot. -/
structure HoldsFunctions (t : FileTree) (root : Location) (files : List FunctionFile) : Prop where
  file : ∀ f ∈ files, f.WellFormed
  inj : ∀ f ∈ files, ∀ g ∈ files, Text.lower f.name.text = Text.lower g.name.text → f = g
  content : ∀ f ∈ files, ∃ content,
    t.get? (root ++ f.path) = some (.file content) ∧ Utf8.readLossy content = f.text
  other : ∀ path e, t.get? (root ++ path) = some e → e.isFile = true →
    (∃ f ∈ files, path = f.path ∨ path = f.header) ∨
    (∃ name : Text, path = [("cl" : Text), name] ∧ ("C@" : Text) <+: name ∧ (".h" : Text) <:+ name) ∨
    ∀ name, path.getLast? = some name → ∀ f ∈ files, ¬ Text.lower (f.name.stem ++ ".") <+: Text.lower name

namespace HoldsFunctions

variable {t : FileTree} {s : InspectorSettings} {root : Location} {files : List FunctionFile} {f : FunctionFile}

theorem name_below (root : Location) (names : List Text) (name : Text) :
    ((⟨.top, root⟩ : Path).below (names ++ [name])).name = name :=
  Path.name_below_append _ names name

theorem name_class (root : Location) (name : Text) : ((⟨.top, root⟩ : Path).below ["cl", name]).name = name :=
  name_below root ["cl"] name

/-- What a scan for a function finds is the function's file, a header beside it, or the header of a
class. -/
theorem mem_matching (h : HoldsFunctions t root files) (hwf : t.WellFormed) (hl : t.LinkFree)
    (hroot : t.get? root = some .directory) (hf : f ∈ files) {p : Path}
    (hp : p ∈ Scan.matching (t.walk ⟨.top, root⟩) (f.name.stem ++ ".") true) :
    p = (⟨.top, root⟩ : Path).below f.path ∨ p = (⟨.top, root⟩ : Path).below f.header ∨
      ∃ name : Text, p = (⟨.top, root⟩ : Path).below ["cl", name] ∧ ("C@" : Text) <+: name ∧
        (".h" : Text) <:+ name := by
  obtain ⟨hwalk, hlead⟩ := Locate.mem_matching_anchored.1 hp
  obtain ⟨names, e, rfl, hget, he⟩ := (hwf.mem_filesBelow hl hroot).1 hwalk
  have hsame : ∀ g ∈ files, ∀ extension : Text, extension = ".cpp" ∨ extension = ".h" →
      names = g.directory ++ [g.name.stem ++ extension] → f = g := by
    rintro g hg extension he rfl
    have hname := name_below root g.directory (g.name.stem ++ extension)
    rw [Path.below] at hname
    rw [hname] at hlead
    exact h.inj f hf g hg (FunctionFile.lower_text_eq_of_isPrefix
      (h.file f hf).name (h.file g hg).name he hlead)
  rcases h.other names e hget he with ⟨g, hg, rfl | rfl⟩ | ⟨name, rfl, hlead, hext⟩ | hother
  · obtain rfl := hsame g hg g.extension (h.file g hg).extension rfl
    exact .inl rfl
  · obtain rfl := hsame g hg ".h" (.inr rfl) rfl
    exact .inr (.inl rfl)
  · exact .inr (.inr ⟨name, rfl, hlead, hext⟩)
  · rcases List.eq_nil_or_concat names with rfl | ⟨dir, name, rfl⟩
    · rw [List.append_nil, hroot] at hget
      cases hget
      cases he
    · rw [List.concat_eq_append] at hlead hother
      have hname := name_below root dir name
      rw [Path.below] at hname
      rw [hname] at hlead
      exact absurd hlead (hother name (by simp) f hf)

theorem mem_matching_path (h : HoldsFunctions t root files) (hwf : t.WellFormed) (hl : t.LinkFree)
    (hroot : t.get? root = some .directory) (hf : f ∈ files) :
    (⟨.top, root⟩ : Path).below f.path ∈ Scan.matching (t.walk ⟨.top, root⟩) (f.name.stem ++ ".") true := by
  obtain ⟨content, hget, -⟩ := h.content f hf
  refine Locate.mem_matching_anchored.2 ⟨(hwf.mem_filesBelow hl hroot).2 ⟨f.path, _, rfl, hget, rfl⟩, ?_⟩
  rw [FunctionFile.path, name_below]
  exact FunctionFile.isPrefix_lower_name (h.file f hf).name (h.file f hf).extension

theorem not_mem_path (h : HoldsFunctions t root files) (hwf : t.WellFormed) (hf : f ∈ files) :
    ∀ name ∈ f.path, '/' ∉ name := by
  obtain ⟨content, hget, -⟩ := h.content f hf
  exact fun name hname => (hwf.names hget name (by simp [hname])).slash

/-- The file of a function can hold it, as no source lies beside a header. -/
theorem canHoldFunction_path (h : HoldsFunctions t root files) (hwf : t.WellFormed) (hl : t.LinkFree)
    (hroot : t.get? root = some .directory) (hs : s.rootPath = ⟨.top, root⟩) (hd : Locate.DefaultNames s)
    (hf : f ∈ files) :
    Locate.canHoldFunction s (Locate.sourceStems s
      (Scan.matching (t.walk ⟨.top, root⟩) (f.name.stem ++ ".") true)) (s.rootPath.below f.path) = true := by
  have hw := h.file f hf
  rcases hw.extension with he | he
  · refine Locate.canHoldFunction_source ?_
    rw [hs, FunctionFile.path, name_below, hd.source, he]
    exact List.suffix_append ..
  · have hheader : f.header = f.path := by rw [FunctionFile.header, FunctionFile.path, he]
    have hext : ∀ p : Path, p = s.rootPath.below f.path → (".h" : Text) <:+ p.name := by
      rintro p rfl
      rw [hs, FunctionFile.path, name_below, he]
      exact List.suffix_append ..
    have hclass : Locate.isClassHeader s (s.rootPath.below f.path) = false := by
      refine Locate.not_isClassHeader hd (h.not_mem_path hwf hf) (by simp [FunctionFile.path]) ?_
      rw [FunctionFile.path, List.dropLast_concat]
      exact hw.directory
    refine (Locate.canHoldFunction_header_iff (hd.not_source (hext _ rfl))).2
      ⟨by rw [hd.header]; exact hext _ rfl, fun p hp hsource => absurd hsource (hd.not_source ?_), hclass⟩
    -- every file that is found is a header
    rcases h.mem_matching hwf hl hroot hf hp with hp | hp | ⟨name, rfl, -, hname⟩
    · exact hext p (by rw [hs]; exact hp)
    · exact hext p (by rw [hs, ← hheader]; exact hp)
    · rw [name_class]; exact hname

theorem eq_of_canHoldFunction_header (h : HoldsFunctions t root files) (hwf : t.WellFormed) (hl : t.LinkFree)
    (hroot : t.get? root = some .directory) (hs : s.rootPath = ⟨.top, root⟩) (hd : Locate.DefaultNames s)
    (hf : f ∈ files) (hhold : Locate.canHoldFunction s (Locate.sourceStems s
      (Scan.matching (t.walk ⟨.top, root⟩) (f.name.stem ++ ".") true)) (s.rootPath.below f.header) = true) :
    f.header = f.path := by
  rcases (h.file f hf).extension with he | he
  · have hsuffix : (".h" : Text) <:+ (s.rootPath.below f.header).name := by
      rw [hs, FunctionFile.header, name_below]; exact List.suffix_append ..
    have hsource : s.sourceExtension <:+ ((⟨.top, root⟩ : Path).below f.path).name := by
      rw [FunctionFile.path, name_below, hd.source, he]
      exact List.suffix_append ..
    have hnot := hd.not_source hsuffix
    obtain ⟨-, halone, -⟩ := (Locate.canHoldFunction_header_iff hnot).1 hhold
    refine absurd ?_ (halone _ (h.mem_matching_path hwf hl hroot hf) hsource)
    rw [Locate.fileStem_source hsource, Locate.fileStem_header hnot, hd.source, hd.header, hs, FunctionFile.path,
      FunctionFile.header, he, Locate.stem_below, Locate.stem_below]
  · rw [FunctionFile.header, FunctionFile.path, he]

theorem functionFiles_eq (h : HoldsFunctions t root files) (hwf : t.WellFormed) (hl : t.LinkFree)
    (hroot : t.get? root = some .directory) (hs : s.rootPath = ⟨.top, root⟩) (hd : Locate.DefaultNames s)
    (hf : f ∈ files) :
    Locate.functionFiles s (Scan.matching (t.walk ⟨.top, root⟩) (f.name.stem ++ ".") true) =
      [s.rootPath.below f.path] := by
  refine Locate.functionFiles_eq_singleton (by rw [hs]; exact h.mem_matching_path hwf hl hroot hf)
    (h.canHoldFunction_path hwf hl hroot hs hd hf) fun p hp hhold => ?_
  rcases h.mem_matching hwf hl hroot hf hp with hp | hp | ⟨name, hp, hlead, hext⟩
  · rw [hs]; exact hp
  · rw [← hs] at hp
    subst hp
    rw [h.eq_of_canHoldFunction_header hwf hl hroot hs hd hf hhold]
  · have hsuffix : (".h" : Text) <:+ p.name := by
      rw [hp, name_class]; exact hext
    have hclass : Locate.isClassHeader s p = true := by
      rw [hp, ← hs]; exact Locate.isClassHeader_of_isPrefix hd hlead
    obtain ⟨-, -, hnot⟩ := (Locate.canHoldFunction_header_iff (hd.not_source hsuffix)).1 hhold
    rw [hclass] at hnot
    cases hnot

end HoldsFunctions

/-- A query for the qualified name of a function gives its one file. The name that is read from the
file is the name that was asked for, unless its identifier is that of a forkable function or the
definition goes on a declaration that the line before has begun. -/
theorem functions_resolve {r : FieldReaders} {t : FileTree} {v : Value} {s : InspectorSettings} {files : List FunctionFile}
    (hwf : t.WellFormed) (hl : t.LinkFree) (hs : InspectorSettings.ofValue r t v = .ok (.valid s))
    (hd : Locate.DefaultNames s) (h : HoldsFunctions t s.rootPath.names files) :
    ∀ f ∈ files,
      (Locate.functions t s (SearchQuery.ofText ('\\' :: f.name.text))).value.result =
        .ok [s.rootPath.below f.path] ∧
      (f.name.WellFormed → ¬ f.IsContinued → Cpp.readFunctionName t (s.rootPath.below f.path) = .ok f.name.text) := by
  intro f hf
  obtain ⟨root, -, -, -, hpath⟩ := InspectorSettings.rootPath_of_ofValue hwf hl hs
  rw [hpath] at h
  have hw := h.file f hf
  obtain ⟨content, hget, htext⟩ := h.content f hf
  have hroot : t.get? root = some .directory := hwf.get?_of_append hget (by simp [FunctionFile.path])
  have hread : t.read (s.rootPath.below f.path) = .ok content := by
    rw [hpath]
    exact (hwf.read_top_iff hl (hwf.dots_not_mem hget)).2 hget
  obtain ⟨-, -, hdir⟩ := InspectorSettings.isDirectory_rootPath hwf hs
  constructor
  · have hholds : (Locate.containsFunction t (s.rootPath.below f.path)).value = true := by
      rw [Locate.containsFunction_value hread, htext, f.holdsFunction_text]
    have hfiles := h.functionFiles_eq hwf hl hroot hpath hd hf
    rw [← hpath] at hfiles
    rw [Locate.functions_eq hdir hw.name.path?_query hw.name.stem_ne, Locate.keepDefinitions_value, hfiles]
    simp [hholds]
  · intro hname hc
    have hplain : f.line.IsPlainIn f.before f.rest (Utf8.readLossy content) := by
      rw [htext]; exact hw.isPlainIn hc
    have hid : f.line.identifier = functionLead ++ f.name.mangled := rfl
    rw [Cpp.readFunctionName_plain hread hw.line rfl hplain, hid, hname.demangle_identifier]

/-- A method in a source beside its header, and a function in a header alone, with the header of a
class that is named like the first segments of the method. -/
theorem functions_resolve_method :
    let take : FunctionFile := ⟨⟨["VK", "Post"], some "take"⟩, ["o_1"], ".cpp", "#include <a.h>\n", "void", [], []⟩
    let max : FunctionFile := ⟨⟨["max"], none⟩, [], ".h", [], "double", "double v$a", []⟩
    let t : FileTree := ⟨[(["r"], .directory), (["r", "cl"], .directory),
      (["r", "cl", "C@VK@Post.h"], .file []), (["r", "max.h"], .file (Utf8.encode max.text)),
      (["r", "o_1"], .directory), (["r", "o_1", "VK@Post@@take.cpp"], .file (Utf8.encode take.text)),
      (["r", "o_1", "VK@Post@@take.h"], .file [])], by decide +kernel, [], [], []⟩
    let s : InspectorSettings := ⟨"/r", "cl", "C@", ".cpp", ".h", false⟩
    (Locate.functions t s (SearchQuery.ofText "\\VK\\Post::take")).value.result =
      .ok [.ofText "/r/o_1/VK@Post@@take.cpp"] ∧
    Cpp.readFunctionName t (.ofText "/r/max.h") = .ok "max" := by
  intro take max t s
  have hwf : t.WellFormed := .of_entries (by decide +kernel)
  have hl : t.LinkFree := .of_entries (by simp [t])
  have hs : InspectorSettings.ofValue .lax t (.object [(some ("root" : Text), .text "/r")]) = .ok (.valid s) := by rfl
  have htake : take.WellFormed := by
    have hwords : take.name.OfWords := ⟨by decide, by simp [take]; decide, by simp [take]; decide⟩
    exact ⟨hwords, by decide, .inl rfl, by decide +kernel, by simp [IsWholeLines, take], by decide,
      ⟨'v', by decide, by decide⟩, by decide, by decide, by decide, by decide⟩
  have hmax : max.WellFormed := by
    have hwords : max.name.OfWords := ⟨by decide, by simp [max]; decide, by simp [max]⟩
    exact ⟨hwords, by decide, .inr rfl, by decide +kernel, by simp [IsWholeLines, max], by decide,
      ⟨'d', by decide, by decide⟩, by decide, by decide, by decide, by decide⟩
  have hroot : s.rootPath.names = [("r" : Text)] := by decide
  have h : HoldsFunctions t s.rootPath.names [take, max] := by
    rw [hroot]
    refine ⟨by simp [htake, hmax], ?_, ?_, fun path e hget he => ?_⟩
    · have hne : Text.lower take.name.text ≠ Text.lower max.name.text := by decide +kernel
      simp [hne, hne.symm]
    · simp only [List.forall_mem_cons]
      exact ⟨⟨_, by rfl, by decide +kernel⟩, ⟨_, by rfl, by decide +kernel⟩, by simp⟩
    · have hmem := hwf.mem_entries_iff.2 ⟨by simp, hget⟩
      simp only [t, List.mem_cons, Prod.mk.injEq, List.cons_append, List.nil_append, List.cons.injEq,
        true_and, List.not_mem_nil, or_false] at hmem
      rcases hmem with ⟨-, rfl⟩ | ⟨-, rfl⟩ | ⟨rfl, -⟩ | ⟨rfl, -⟩ | ⟨-, rfl⟩ | ⟨rfl, -⟩ | ⟨rfl, -⟩
      · cases he
      · cases he
      · exact .inr (.inl ⟨_, rfl, by decide, by decide⟩)
      · exact .inl ⟨max, by simp, .inl (by decide)⟩
      · cases he
      · exact .inl ⟨take, by simp, .inl (by decide)⟩
      · exact .inl ⟨take, by simp, .inr (by decide)⟩
  obtain ⟨hfound, -⟩ := functions_resolve hwf hl hs ⟨rfl, rfl, rfl, rfl⟩ h take (by simp)
  obtain ⟨-, hname⟩ := functions_resolve hwf hl hs ⟨rfl, rfl, rfl, rfl⟩ h max (by simp)
  have hname := hname ⟨hmax.name, by decide⟩ fun hc => absurd hc.1.suffix (by decide)
  rw [show s.rootPath.below take.path = .ofText "/r/o_1/VK@Post@@take.cpp" by decide +kernel,
    show '\\' :: take.name.text = "\\VK\\Post::take" by decide +kernel] at hfound
  rw [show s.rootPath.below max.path = .ofText "/r/max.h" by decide +kernel,
    show max.name.text = "max" by decide +kernel] at hname
  exact ⟨hfound, hname⟩

/-- A definition that goes on a declaration of the line before gives the name of that declaration. -/
theorem functions_resolve_continued :
    let f : FunctionFile := ⟨⟨["b"], none⟩, [], ".cpp", "int64_t f$a()\n", "noexcept \x7b\x7d int64_t", [], "\n\x7d\n"⟩
    let t : FileTree := ⟨[(["r"], .directory), (["r", "b.cpp"], .file (Utf8.encode f.text))], by decide +kernel, [], [], []⟩
    let s : InspectorSettings := ⟨"/r", "cl", "C@", ".cpp", ".h", false⟩
    (t.WellFormed ∧ t.LinkFree ∧
      InspectorSettings.ofValue .lax t (.object [(some ("root" : Text), .text "/r")]) = .ok (.valid s) ∧
      Locate.DefaultNames s ∧ HoldsFunctions t s.rootPath.names [f] ∧ f.name.WellFormed) ∧
    Cpp.readFunctionName t (s.rootPath.below f.path) = .ok "a" ∧ f.name.text = "b" := by
  intro f t s
  have hwf : t.WellFormed := .of_entries (by decide +kernel)
  have hf : f.WellFormed := by
    have hwords : f.name.OfWords := ⟨by decide, by simp [f]; decide, by simp [f]⟩
    exact ⟨hwords, by decide, .inl rfl, by decide +kernel, by simp [IsWholeLines, f], by decide,
      ⟨'n', by decide, by decide⟩, by decide, by decide, by decide, by decide⟩
  have hroot : s.rootPath.names = [("r" : Text)] := by decide
  have h : HoldsFunctions t s.rootPath.names [f] := by
    rw [hroot]
    refine ⟨by simp [hf], by simp, ?_, fun path e hget he => ?_⟩
    · simp only [List.forall_mem_cons]
      exact ⟨⟨_, by rfl, by decide +kernel⟩, by simp⟩
    · have hmem := hwf.mem_entries_iff.2 ⟨by simp, hget⟩
      simp only [t, List.mem_cons, Prod.mk.injEq, List.cons_append, List.nil_append, List.cons.injEq,
        true_and, List.not_mem_nil, or_false] at hmem
      rcases hmem with ⟨-, rfl⟩ | ⟨rfl, -⟩
      · cases he
      · exact .inl ⟨f, by simp, .inl (by decide)⟩
  exact ⟨⟨hwf, .of_entries (by simp [t]), by rfl, ⟨rfl, rfl, rfl, rfl⟩, h, hf.name, by decide⟩,
    by decide +kernel, by decide⟩

end GenScope
