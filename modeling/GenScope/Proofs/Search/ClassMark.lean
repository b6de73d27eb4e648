import GenScope.Proofs.Search.FunctionFiles

/-!
# Class headers in the class directory

The class directory is gone to as a path, but class headers are told by its text. The header of a class is
kept from the function files if and only if some of the names that lead to it spell that text one by one
(`class_header_rejected_iff`). Without links this asks for the one text that joins the names of the class
directory, so that with a slash behind it the text leads to the same directory and its headers are taken for
those of functions (`class_header_kept`).
-/

namespace GenScope

theorem InspectorSettings.classRoot_of_join {s : InspectorSettings} {dirs : List Text}
    (hdirs : ∀ name ∈ dirs, IsEntryName name) (hne : dirs ≠ []) (h : s.classSubdir = Text.join "/" dirs) :
    s.classRoot = s.rootPath.below dirs := by
  have htext : Text.join "/" dirs = Path.toText ⟨.relative, dirs⟩ := by
    obtain ⟨dir, dirs, rfl⟩ := List.exists_cons_of_ne_nil hne
    rfl
  rw [classRoot, h, htext, Path.ofText_toText_relative hdirs]
  rfl

namespace Locate

variable {r : FieldReaders} {t : FileTree} {s : InspectorSettings} {v : Value} {p : Path} {dir : List Text}
  {name : Text}

/-- A header that is not a source is never kept if and only if it is that of a class: in a list of its own it
is beside no source. -/
theorem header_rejected_iff (hheader : s.headerExtension <:+ p.name) (hsource : ¬ s.sourceExtension <:+ p.name) :
    (∀ paths, p ∉ functionFiles s paths) ↔ isClassHeader s p = true := by
  simp only [mem_functionFiles_iff, canHoldFunction_header_iff hsource]
  constructor
  · intro h
    by_contra hclass
    refine h [p] ⟨by simp, hheader, fun src hsrc hext => ?_, by simpa using hclass⟩
    rw [List.mem_singleton.1 hsrc] at hext
    exact absurd hext hsource
  · rintro hclass paths ⟨-, -, -, h⟩
    rw [hclass] at h
    cases h

/-- Without links two ways to one directory are the same names, so the names of a file in the class directory
spell its text only as the names of that directory. -/
theorem spellsClassFile_iff_of_linkFree (hwf : t.WellFormed) (hl : t.LinkFree)
    (hs : InspectorSettings.ofValue r t v = .ok (.valid s))
    (hp : s.rootPath.below (dir ++ [name]) ∈ t.filesBelow s.rootPath)
    (hdir : t.follow s.classRoot = t.follow (s.rootPath.below dir)) (hlead : s.classFileLead <+: name) :
    SpellsClassFile s (dir ++ [name]) ↔ s.classSubdir = Text.join "/" dir := by
  constructor
  · rintro ⟨before, dirs, next, after, hnames, hne, hsubdir, -⟩
    obtain ⟨root, _, hroot, -, hpath⟩ := InspectorSettings.rootPath_of_ofValue hwf hl hs
    obtain ⟨names, -, hbelow, hentries⟩ := hwf.exists_below_of_mem hp
    obtain rfl := Path.below_inj.1 hbelow
    have hdirs : ∀ d ∈ dirs, IsEntryName d := fun d hd => hentries d (by rw [hnames]; simp [hd])
    obtain ⟨loc, hf, -⟩ := FileTree.follow_of_mem_filesBelow (hwf.mem_filesBelow_below (by simp) hp)
    have hclass : t.follow (s.rootPath.below dirs) = .ok loc := by
      rw [← InspectorSettings.classRoot_of_join hdirs hne hsubdir, hdir, hf]
    have hplace : ∀ below : List Text, (∀ d ∈ below, IsEntryName d) → t.follow (s.rootPath.below below) = .ok loc →
        loc = root ++ below := by
      intro below hbelow hf
      rw [hpath] at hf
      exact hl.eq_of_follow_top (hwf.dots_not_mem_append hroot hbelow) hf
    have hloc := hplace dir (fun d hd => hentries d (by simp [hd])) hf
    rw [hloc] at hplace hclass
    rw [hsubdir, List.append_cancel_left (hplace dirs hdirs hclass)]
  · intro hsubdir
    refine ⟨[], dir, name, [], rfl, ?_, hsubdir, hlead⟩
    rintro rfl
    exact InspectorSettings.classSubdir_ne_nil hs hsubdir

/-- A walk of the root lists a file in the class directory that starts as the files of classes do and is a
header and no source. No list of files lets it pass for that of a function if and only if the class directory
is spelled name by name on the way to it, which without links means that its text joins the names of the
directory. -/
theorem class_header_rejected_iff (hwf : t.WellFormed) (hs : InspectorSettings.ofValue r t v = .ok (.valid s))
    (hp : s.rootPath.below (dir ++ [name]) ∈ t.filesBelow s.rootPath)
    (hdir : t.follow s.classRoot = t.follow (s.rootPath.below dir)) (hlead : s.classFileLead <+: name)
    (hheader : s.headerExtension <:+ name) (hsource : ¬ s.sourceExtension <:+ name) :
    ((∀ paths, s.rootPath.below (dir ++ [name]) ∉ functionFiles s paths) ↔ SpellsClassFile s (dir ++ [name])) ∧
    (t.LinkFree → ((∀ paths, s.rootPath.below (dir ++ [name]) ∉ functionFiles s paths) ↔
      s.classSubdir = Text.join "/" dir)) := by
  obtain ⟨names, hne, hbelow, hentries⟩ := hwf.exists_below_of_mem hp
  obtain rfl := Path.below_inj.1 hbelow
  have hslash : '/' ∉ s.classFileLead := fun h => (hentries name (by simp)).slash (hlead.subset h)
  have hspells : (∀ paths, s.rootPath.below (dir ++ [name]) ∉ functionFiles s paths) ↔
      SpellsClassFile s (dir ++ [name]) := by
    rw [header_rejected_iff (by simpa using hheader) (by simpa using hsource), isClassHeader_below_iff hne,
      hasClassMark_iff hne (fun d hd => (hentries d hd).slash) hslash]
  refine ⟨hspells, fun hl => ?_⟩
  rw [hspells, spellsClassFile_iff_of_linkFree hwf hl hs hp hdir hlead]

/-- The names of a nested class directory, joined. -/
theorem class_header_rejected_nested :
    let t : FileTree := ⟨[(["r"], .directory), (["r", "a"], .directory), (["r", "a", "cl"], .directory),
      (["r", "a", "cl", "C@B.h"], .file [])], by decide +kernel, [], [], []⟩
    let s : InspectorSettings := ⟨"/r", "a/cl", "C@", ".cpp", ".h", false⟩
    (t.WellFormed ∧ t.LinkFree ∧ InspectorSettings.ofValue .lax t (.object [(some ("root" : Text), .text "/r"),
        (some ("class_subdir" : Text), .text "a/cl")]) = .ok (.valid s) ∧
      s.rootPath.below (["a", "cl"] ++ ["C@B.h"]) ∈ t.filesBelow s.rootPath ∧
      t.follow s.classRoot = t.follow (s.rootPath.below ["a", "cl"]) ∧ s.classFileLead <+: "C@B.h" ∧
      s.headerExtension <:+ "C@B.h" ∧ ¬ s.sourceExtension <:+ "C@B.h") ∧
    ∀ paths, Path.ofText "/r/a/cl/C@B.h" ∉ functionFiles s paths := by
  intro t s
  have hwf : t.WellFormed := .of_entries (by decide +kernel)
  have hl : t.LinkFree := .of_entries (by simp [t])
  have hs : InspectorSettings.ofValue .lax t (.object [(some ("root" : Text), .text "/r"),
      (some ("class_subdir" : Text), .text "a/cl")]) = .ok (.valid s) := by rfl
  have hp : s.rootPath.below (["a", "cl"] ++ ["C@B.h"]) ∈ t.filesBelow s.rootPath := by decide +kernel
  have hdir : t.follow s.classRoot = t.follow (s.rootPath.below ["a", "cl"]) := by decide +kernel
  have hlead : s.classFileLead <+: "C@B.h" := by decide
  have hheader : s.headerExtension <:+ "C@B.h" := by decide
  have hsource : ¬ s.sourceExtension <:+ "C@B.h" := by decide
  exact ⟨⟨hwf, hl, hs, hp, hdir, hlead, hheader, hsource⟩,
    ((class_header_rejected_iff hwf hs hp hdir hlead hheader hsource).2 hl).2 rfl⟩

/-- The class directory is given with a slash behind it. -/
theorem class_header_kept :
    let t : FileTree := ⟨[(["out"], .directory), (["out", "cl"], .directory),
      (["out", "cl", "C@A.h"], .file (Utf8.encode "int f$a()"))], by decide +kernel, [], [], []⟩
    let s : InspectorSettings := ⟨"/out", "cl/", "C@", ".cpp", ".h", false⟩
    let p := s.rootPath.below ["cl", "C@A.h"]
    (t.WellFormed ∧ InspectorSettings.ofValue .lax t (.object [(some ("root" : Text), .text "/out"),
        (some ("class_subdir" : Text), .text "cl/")]) = .ok (.valid s) ∧
      p ∈ t.filesBelow s.rootPath ∧ t.follow s.classRoot = t.follow (s.rootPath.below ["cl"]) ∧
      s.classFileLead <+: p.name ∧ s.headerExtension <:+ p.name ∧ ¬ s.sourceExtension <:+ p.name) ∧
    functionFiles s (t.filesBelow s.rootPath) = [p] ∧
    (functions t s (SearchQuery.ofText "a")).value.result = .ok [p] := by
  intro t s p
  have hwf : t.WellFormed := .of_entries (by decide +kernel)
  exact ⟨⟨hwf, by rfl, by decide +kernel, by decide +kernel, by decide, by decide, by decide⟩, by decide +kernel,
    by decide +kernel⟩

end Locate

end GenScope
