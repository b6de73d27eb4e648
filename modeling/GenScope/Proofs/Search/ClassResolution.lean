import GenScope.Cpp.Source
import GenScope.Proofs.Cpp.ClassHeader
import GenScope.Proofs.Search.Offered

/-!
# Resolution of class names

In a tree that keeps the header of a class under the name of the class (`HoldsHeader`), a query for
the qualified name gives that header and no other file, and the class that is read from the header
has the name that was asked for and the fields that the header was written with (`classes_resolve`).
-/

namespace GenScope

/-- The header is the only file below the class directory whose name starts, up to case, with the lead
of class headers, the stem of the class and a dot. -/
structure HoldsHeader (t : FileTree) (s : InspectorSettings) (h : Cpp.ClassHeader) (p : Path) : Prop where
  path : p = s.classRoot.child ("C@" ++ h.name.stem ++ ".h")
  listed : p ∈ t.filesBelow s.classRoot
  only : ∀ r ∈ t.filesBelow s.classRoot, Text.lower ("C@" ++ h.name.stem ++ ".") <+: Text.lower r.name → r = p
  content : ∃ content, t.read p = .ok content ∧ Utf8.readLossy content = h.text

namespace HoldsHeader

variable {t : FileTree} {s : InspectorSettings} {h : Cpp.ClassHeader} {p : Path}

theorem isDirectory (hh : HoldsHeader t s h p) : t.isDirectory s.classRoot = true := by
  obtain ⟨loc, hfollow, hdir⟩ := FileTree.follow_of_mem_filesBelow hh.listed
  exact FileTree.isDirectory_of_follow hfollow hdir

theorem name_eq (hh : HoldsHeader t s h p) : p.name = "C@" ++ h.name.stem ++ ".h" := by
  rw [hh.path]
  exact Path.name_child ..

theorem finds_iff (hh : HoldsHeader t s h p) (hd : Locate.DefaultNames s) (hname : h.name.OfWords) {r : Path} :
    t.Finds s.classRoot s.classFileLead (SearchQuery.ofText ('\\' :: h.name.text)) r ↔ r = p := by
  have hseeks : ∀ name, (SearchQuery.ofText ('\\' :: h.name.text)).Seeks s.classFileLead name ↔
      Text.lower ("C@" ++ h.name.stem ++ ".") <+: Text.lower name := by
    intro name
    rw [SearchQuery.Seeks, hname.path?_query, hd.lead]
    exact and_iff_right hname.stem_ne
  rw [FileTree.Finds, hseeks]
  constructor
  · rintro ⟨hr, hlead⟩
    exact hh.only r hr hlead
  · rintro rfl
    refine ⟨hh.listed, ?_⟩
    have hstem : ∀ c ∈ h.name.stem, c.toNat < 128 :=
      hname.forall_written (by decide) (by simp) fun c hc => toNat_lt_of_isNameChar hc
    have hascii : ∀ c ∈ ("C@" ++ h.name.stem ++ ".h" : Text), c.toNat < 128 := by
      intro c hc
      simp only [List.mem_append] at hc
      rcases hc with (hc | hc) | hc
      · exact (by simp : ∀ c ∈ ("C@" : Text), c.toNat < 128) c hc
      · exact hstem c hc
      · exact (by simp : ∀ c ∈ (".h" : Text), c.toNat < 128) c hc
    rw [hh.name_eq]
    exact Text.lower_isPrefix hascii ((List.prefix_append_right_inj _).2 (by decide))

theorem classes_eq (hh : HoldsHeader t s h p) (hwf : t.WellFormed) (hd : Locate.DefaultNames s)
    (hname : h.name.OfWords) :
    (Locate.classes t s (SearchQuery.ofText ('\\' :: h.name.text))).value.result = .ok [p] := by
  classical
  have hwords : (SearchQuery.ofText ('\\' :: h.name.text)).words = [] := SearchQuery.words_of_path? hname.path?_query
  have hcandidate : Locate.IsClassCandidate s (t.Finds s.classRoot s.classFileLead
      (SearchQuery.ofText ('\\' :: h.name.text))) [] ["C@" ++ h.name.stem ++ ".h"] := by
    have hbelow : s.classRoot.below ["C@" ++ h.name.stem ++ ".h"] = p := hh.path.symm
    refine ⟨(hh.finds_iff hd hname).2 hbelow, by simp, ?_⟩
    rw [hbelow, hh.name_eq, hd.header]
    exact List.suffix_append ..
  rw [Locate.classes_eq_filter hwf hh.isDirectory, hwords]
  refine congrArg Except.ok ?_
  rw [← Locate.eraseDups_of_nodup ((FileTree.nodup_filesBelow t s.classRoot).filter _)]
  refine Locate.eraseDups_eq_singleton (List.mem_filter.2 ⟨hh.listed, ?_⟩) fun r hr => ?_
  · rw [decide_eq_true_eq]
    exact ⟨_, hh.path, hcandidate⟩
  · obtain ⟨names, rfl, hc⟩ := of_decide_eq_true (List.mem_filter.1 hr).2
    exact (hh.finds_iff hd hname).1 hc.isFound

end HoldsHeader

/-- A query for the qualified name of a class gives its header, and the header gives back the name and
the fields. -/
theorem classes_resolve {t : FileTree} {s : InspectorSettings} {h : Cpp.ClassHeader} {p : Path}
    (hwf : t.WellFormed) (hd : Locate.DefaultNames s) (hw : h.WellFormed) (hh : HoldsHeader t s h p) :
    (Locate.classes t s (SearchQuery.ofText ('\\' :: h.name.text))).value.result = .ok [p] ∧
    Cpp.extractClass t p = .ok { name := h.name.text, path := p.toText, fields := h.fields, source := h.text } := by
  refine ⟨hh.classes_eq hwf hd hw.name, ?_⟩
  obtain ⟨content, hread, htext⟩ := hh.content
  have hsource : Cpp.ClassSource.ofFile t p = .ok ⟨p, h.text⟩ := by
    rw [Cpp.ClassSource.ofFile, Cpp.readSource, hread, ← htext]
    rfl
  have hname : Cpp.ClassSource.name ⟨p, h.text⟩ = .ok h.name.text := by
    rw [Cpp.ClassSource.name, hw.className?_text]
  rw [Cpp.extractClass, hsource]
  show Cpp.ClassSource.extract _ = _
  rw [Cpp.ClassSource.extract, hname, Cpp.ClassSource.fields, hw.fields_text]
  rfl

/-- Two fields with an initializer and with a class for a type, between lines that hold a method, and
the header of a class with a longer name beside them. -/
theorem classes_resolve_post :
    let id : Cpp.FieldLine := ⟨"int64_t", "id", "0L"⟩
    let origin : Cpp.FieldLine := ⟨"class_instance<C$VK$User>", "origin", []⟩
    let h : Cpp.ClassHeader := ⟨⟨["VK", "Post"], none⟩, ["#pragma once", []], " : public refcountable",
      [.field id, .other "  int f() const;", .field origin, .other ";", .other []]⟩
    let t : FileTree := ⟨[(["r"], .directory), (["r", "cl"], .directory),
      (["r", "cl", "C@VK@Post.h"], .file (Utf8.encode h.text)), (["r", "cl", "C@VK@Postpone.h"], .file [])],
      by decide +kernel, [], [], []⟩
    let s : InspectorSettings := ⟨"/r", "cl", "C@", ".cpp", ".h", false⟩
    let p := Path.ofText "/r/cl/C@VK@Post.h"
    (t.WellFormed ∧ Locate.DefaultNames s ∧ h.WellFormed ∧ HoldsHeader t s h p) ∧
    (Locate.classes t s (SearchQuery.ofText "\\VK\\Post")).value.result = .ok [p] ∧
    Cpp.extractClass t p = .ok ⟨"VK\\Post", "/r/cl/C@VK@Post.h",
      [⟨"id", "int64_t"⟩, ⟨"origin", "class_instance<C$VK$User>"⟩], h.text⟩ := by
  intro id origin h t s p
  have hwf : t.WellFormed := .of_entries (by decide +kernel)
  have hd : Locate.DefaultNames s := ⟨rfl, rfl, rfl, rfl⟩
  have hplain : ∀ type : Text, (∀ c ∈ type, Text.isBlank c = false) →
      ∀ u b v, type = u ++ b :: '$' :: v → Text.isBlank b = false := by
    intro type htype u b v heq
    exact htype b (by simp [heq])
  have hid : id.WellFormed :=
    ⟨by decide, by decide, hplain _ (by simp [id]; decide), by decide, by simp [id]; decide, by decide⟩
  have horigin : origin.WellFormed :=
    ⟨by decide, by decide, hplain _ (by simp [origin]; decide), by decide, by simp [origin]; decide, by decide⟩
  have hw : h.WellFormed := by
    have hwords : h.name.OfWords := ⟨by decide, by simp [h]; decide, by simp [h]⟩
    refine ⟨hwords, rfl, by decide, by decide, by simp [h]; decide, ?_⟩
    simp only [h, List.forall_mem_cons]
    exact ⟨hid, ⟨by decide, by decide, by decide⟩, horigin, ⟨by decide, by decide, by decide⟩,
      ⟨by decide, by decide, by decide⟩, by simp⟩
  have hh : HoldsHeader t s h p := by
    have hfiles : t.filesBelow s.classRoot = [p, .ofText "/r/cl/C@VK@Postpone.h"] := by decide +kernel
    refine ⟨by decide +kernel, by simp [hfiles], fun r hr hlead => ?_, ⟨_, by rfl, by decide +kernel⟩⟩
    rw [hfiles] at hr
    rcases List.mem_pair.1 hr with rfl | rfl
    · rfl
    · exact absurd hlead (by decide +kernel)
  obtain ⟨hfound, hread⟩ := classes_resolve hwf hd hw hh
  have hname : h.name.text = "VK\\Post" := by decide +kernel
  have hquery : '\\' :: h.name.text = "\\VK\\Post" := by decide +kernel
  have hpath : p.toText = "/r/cl/C@VK@Post.h" := by decide +kernel
  have hfields : h.fields = [⟨"id", "int64_t"⟩, ⟨"origin", "class_instance<C$VK$User>"⟩] := by decide +kernel
  rw [hquery] at hfound
  rw [hname, hpath, hfields] at hread
  exact ⟨⟨hwf, hd, hw, hh⟩, hfound, hread⟩

end GenScope
