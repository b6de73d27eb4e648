import GenScope.Proofs.Cpp.DefinitionLine
import GenScope.Proofs.Cpp.ParameterList

/-!
# The signature of a generated function

Name, return type and parameters of a function's file are those of its definition line. For a plain
function the line stands behind whole lines without an opening brace (`signature_plain`), for a
forkable one behind whole lines without a forkable identifier, whatever plain definitions they hold
(`signature_forkable`). What follows the line never matters.
-/

namespace GenScope.Cpp

open Text (isBlank isWordChar isIdentChar IsWholeLines)

/-- The type is one that the generator writes in front of a function. -/
structure IsReturnType (type : Text) : Prop where
  length : 2 ≤ type.length
  head : ∃ c, type.head? = some c ∧ isWordChar c = true
  line : '\n' ∉ type
  plain : ¬ functionLead <:+: type
  noInline : ¬ ("inline " : Text) <:+: type

/-- The text can follow the lead of an identifier. -/
structure IsName (name : Text) : Prop where
  ne_nil : name ≠ []
  ident : ∀ c ∈ name, isIdentChar c = true

theorem IsReturnType.wellFormed {l : DefinitionLine} (htype : IsReturnType l.type)
    (hlead : l.lead = functionLead ∨ l.lead = forkLead) (hname : IsName l.name)
    (hl : '\n' ∉ l.parameters) (hb : '{' ∉ l.parameters) : l.WellFormed :=
  ⟨hlead, htype.head, htype.line, htype.plain, hname.ne_nil, hname.ident, hl, hb⟩

/-- The definition line of a plain function. -/
def plainLine (isInline : Bool) (type name : Text) (ps : List WrittenParameter)
    (isNoexcept : Bool) : DefinitionLine :=
  ⟨isInline, type, functionLead, name, Text.join ", " (ps.map (·.text)), isNoexcept⟩

def forkableLine (type name parameters : Text) : DefinitionLine :=
  ⟨false, type, forkLead, name, parameters, true⟩

theorem plainLine_wellFormed {isInline isNoexcept : Bool} {type name : Text}
    {ps : List WrittenParameter} (htype : IsReturnType type) (hname : IsName name)
    (hps : ∀ p ∈ ps, p.WellFormed) : (plainLine isInline type name ps isNoexcept).WellFormed := by
  have hmem : ∀ {c : Char}, isWordChar c = false → c ∉ (" const &v$" : Text) → c ∉ (", " : Text) →
      (∀ p ∈ ps, c ∉ p.type) → c ∉ Text.join ", " (ps.map (·.text)) := by
    intro c hw hc hsep ht
    refine Text.not_mem_join hsep fun d hd => ?_
    obtain ⟨p, hp, rfl⟩ := List.mem_map.1 hd
    exact (hps p hp).not_mem_text hw hc (ht p hp)
  refine htype.wellFormed (l := plainLine ..) (.inl rfl) hname (hmem ?_ ?_ ?_ ?_) (hmem ?_ ?_ ?_ ?_)
  case refine_4 => exact fun p hp => (hps p hp).type_line
  case refine_8 => exact fun p hp => (hps p hp).type_brace
  all_goals decide

theorem forkableLine_wellFormed {type name parameters : Text} (htype : IsReturnType type)
    (hname : IsName name) (hline : '\n' ∉ parameters) (hbrace : '{' ∉ parameters) :
    (forkableLine type name parameters).WellFormed :=
  htype.wellFormed (l := forkableLine ..) (.inr rfl) hname hline hbrace

/-- The text holds the line behind whole lines without an opening brace, is not resumable, and the
line does not go on a declaration that the line before has begun. -/
structure DefinitionLine.IsPlainIn (l : DefinitionLine) (before rest text : Text) : Prop where
  text_eq : text = before ++ (l.text ++ rest)
  marker : ¬ resumableMarker <:+: text
  lines : IsWholeLines before
  brace : '{' ∉ before
  notClosing : ¬ (BeginsDeclaration functionLead before ∧ ClosesDeclaration l.head)

/-- The text of a file that holds a definition line between two texts. -/
def fileWith (before : Text) (l : DefinitionLine) (rest : Text) : Text :=
  before ++ l.text ++ "\n" ++ rest

namespace FunctionSource

variable {f : FunctionSource} {l : DefinitionLine} {before rest : Text}

theorem signature_of_declaration? (hl : l.WellFormed) (hw : IsWholeLines before)
    (hd : f.declaration? = some (l.declaration before rest)) (htype : IsReturnType l.type) :
    f.name = .ok (demangle l.identifier) ∧ f.returnType = .ok l.type ∧
      f.parameters = .ok (Cpp.parameters l.parameters) := by
  have hfrom : (l.declaration before rest).fromLine = l.text ++ rest := by
    have hline : '\n' ∉ l.head ++ [' '] := by simpa using hl.head_line
    rw [Declaration.fromLine, DefinitionLine.declaration, List.append_assoc,
      Text.lastLine_append hw hline, DefinitionLine.text_append]
    simp
  refine ⟨?_, ?_, ?_⟩
  · simp [name, declaration, hd, Except.map, DefinitionLine.declaration]
  · simp [returnType, hd, hfrom, hl.returnType?_text htype.length htype.noInline]
  · simp [parameters, declaration, hd, Except.map, DefinitionLine.declaration]

/-! ### Plain definitions -/

theorem declaration?_plain (h : l.IsPlainIn before rest f.text) (hl : l.WellFormed)
    (hlead : l.lead = functionLead) : f.declaration? = some (l.declaration before rest) := by
  have hres : f.isResumable = false := by
    rw [isResumable, Bool.eq_false_iff]; exact fun hm => h.marker (Text.occursIn_iff.1 hm)
  have hfind : Declaration.find? functionLead f.text = some (l.declaration before rest) := by
    rw [h.text_eq, ← hlead]
    exact hl.find?_plain h.lines h.brace (hlead ▸ h.notClosing)
  rw [declaration?, hres]
  exact hfind

theorem name_plain (h : l.IsPlainIn before rest f.text) (hl : l.WellFormed)
    (hlead : l.lead = functionLead) : f.name = .ok (demangle l.identifier) := by
  simp [name, declaration, declaration?_plain h hl hlead, Except.map, DefinitionLine.declaration]

/-- A plain definition behind whole lines without an opening brace is read back, unless the text in
front of its identifier goes on a declaration that the line before has begun. -/
theorem signature_plain {isInline isNoexcept : Bool} {type name : Text} {ps : List WrittenParameter}
    (htext : f.text = fileWith before (plainLine isInline type name ps isNoexcept) rest)
    (hplain : ¬ resumableMarker <:+: f.text) (hw : IsWholeLines before) (hb : '{' ∉ before)
    (htype : IsReturnType type) (hname : IsName name) (hps : ∀ p ∈ ps, p.WellFormed)
    (hc : ¬ (BeginsDeclaration functionLead before ∧ isInline = false ∧ ClosesDeclaration type)) :
    f.name = .ok (demangle (functionLead ++ name)) ∧ f.returnType = .ok type ∧
      f.parameters = .ok ((ps.map (·.toVariable)).filter (·.name != receiverName)) := by
  have hl : (plainLine isInline type name ps isNoexcept).WellFormed :=
    plainLine_wellFormed htype hname hps
  have hhead : ¬ (BeginsDeclaration functionLead before ∧
      ClosesDeclaration (plainLine isInline type name ps isNoexcept).head) := by
    rintro ⟨hbegin, hclose⟩
    cases isInline with
    | false => exact hc ⟨hbegin, rfl, hclose⟩
    | true => exact hclose.not_inline
  have hin : (plainLine isInline type name ps isNoexcept).IsPlainIn before ("\n" ++ rest) f.text :=
    ⟨by rw [htext, fileWith, List.append_assoc, List.append_assoc], hplain, hw, hb, hhead⟩
  have hd := declaration?_plain hin hl rfl
  have hparams : Cpp.parameters (Text.join ", " (ps.map (·.text))) =
      (ps.map (·.toVariable)).filter (·.name != receiverName) :=
    WrittenParameter.parameters_join_text hps
  rw [← hparams]
  simpa only [plainLine, DefinitionLine.identifier] using signature_of_declaration? hl hw hd htype

/-- A method: the receiver is left out, and commas inside a type do not cut it. -/
theorem signature_plain_method :
    let ps : List WrittenParameter := [⟨"class_instance<C$VK$Post>", .byConstant, "this"⟩,
      ⟨"std::tuple<int64_t, string>", .byReference, "pair"⟩, ⟨"int64_t", .byValue, "limit"⟩]
    let f : FunctionSource := ⟨.ofText "Post.cpp", ".h", fileWith "#include <a.h>\n"
      (plainLine false "array< int64_t >" "VK$Post$$take" ps true) "  return v$r;\n\x7d\n"⟩
    f.name = .ok "VK\\Post::take" ∧ f.returnType = .ok "array< int64_t >" ∧
      f.parameters = .ok [⟨"$pair", "std::tuple<int64_t, string>"⟩, ⟨"$limit", "int64_t"⟩] := by
  intro ps f
  have htype : IsReturnType "array< int64_t >" :=
    ⟨by decide, ⟨'a', by decide, by decide⟩, by decide, by decide, by decide⟩
  have hname : IsName "VK$Post$$take" := ⟨by decide, List.all_eq_true.1 (by decide)⟩
  have hps : ∀ p ∈ ps, p.WellFormed := by
    simp only [ps, List.mem_cons, List.not_mem_nil, or_false, forall_eq_or_imp, forall_eq]
    refine ⟨⟨?_, ?_, ?_, ?_, ?_, ?_, ?_, ?_, ?_⟩, ⟨?_, ?_, ?_, ?_, ?_, ?_, ?_, ?_, ?_⟩,
      ⟨?_, ?_, ?_, ?_, ?_, ?_, ?_, ?_, ?_⟩⟩
    case refine_9 | refine_18 | refine_27 => exact List.all_eq_true.1 (by decide)
    all_goals decide +kernel
  obtain ⟨hn, ht, hv⟩ := signature_plain (f := f) rfl (by decide +kernel) (by simp [IsWholeLines]) (by decide)
    htype hname hps fun h => absurd h.1.suffix (by decide)
  exact ⟨hn.trans (congrArg Except.ok (by decide +kernel)), ht,
    hv.trans (congrArg Except.ok (by decide +kernel))⟩

/-- A line that ends at the closing bracket of a call is gone on by a type that starts with
`noexcept` and an opening brace: the call gives the name. -/
theorem signature_plain_continued :
    let before : Text := "int64_t f$a()\n"
    let type : Text := "noexcept \x7b\x7d int64_t"
    let f : FunctionSource := ⟨.ofText "b.cpp", ".h",
      fileWith before (plainLine false type "b" [] true) "\x7d\n"⟩
    (¬ resumableMarker <:+: f.text ∧ IsWholeLines before ∧ '{' ∉ before ∧ IsReturnType type ∧
      IsName "b") ∧
    f.name = .ok "a" ∧ f.name ≠ .ok (demangle (functionLead ++ "b")) := by
  intro before type f
  have htype : IsReturnType type :=
    ⟨by decide, ⟨'n', by decide, by decide⟩, by decide, by decide, by decide⟩
  have hname : IsName "b" := ⟨by decide, List.all_eq_true.1 (by decide)⟩
  have hread : f.name = .ok "a" := by decide +kernel
  refine ⟨⟨by decide +kernel, by simp [IsWholeLines, before], by decide, htype, hname⟩, hread, ?_⟩
  rw [hread]
  decide

/-! ### Forkable definitions -/

/-- The file is resumable and holds a forkable line behind whole lines without a forkable
identifier. -/
structure IsForkable (f : FunctionSource) (l : DefinitionLine) : Prop where
  marker : resumableMarker <:+: f.text
  text : ∃ before rest, f.text = fileWith before l rest ∧ IsWholeLines before ∧
    ¬ forkLead <:+: before

theorem IsForkable.declaration? (hf : f.IsForkable l) (hl : l.WellFormed) (hlead : l.lead = forkLead) :
    ∃ before rest, IsWholeLines before ∧ f.declaration? = some (l.declaration before rest) := by
  obtain ⟨before, rest, htext, hw, hb⟩ := hf.text
  have hres : f.isResumable = true := Text.occursIn_iff.2 hf.marker
  have hfind : Declaration.find? forkLead f.text = some (l.declaration before ("\n" ++ rest)) := by
    rw [htext, fileWith, List.append_assoc, List.append_assoc, ← hlead]
    exact hl.find?_of_not_infix hw (hlead ▸ hb)
  refine ⟨before, "\n" ++ rest, hw, ?_⟩
  rw [FunctionSource.declaration?, if_pos hres, hfind]
  rfl

theorem IsForkable.signature {type name parameters : Text}
    (hf : f.IsForkable (forkableLine type name parameters)) (htype : IsReturnType type)
    (hname : IsName name) (hline : '\n' ∉ parameters) (hbrace : '{' ∉ parameters) :
    f.name = .ok (demangle (forkLead ++ name)) ∧ f.returnType = .ok type ∧
      f.parameters = .ok (Cpp.parameters parameters) := by
  have hl := forkableLine_wellFormed htype hname hline hbrace
  obtain ⟨before, rest, hw, hd⟩ := hf.declaration? hl rfl
  simpa only [forkableLine, DefinitionLine.identifier] using signature_of_declaration? hl hw hd htype

/-- In a resumable file the forkable definition gives the signature, and nothing that stands around
it does. Its parameters are those of its list, and of every way to write the list as declarations. -/
theorem signature_forkable {type name parameters : Text}
    (hf : f.IsForkable (forkableLine type name parameters)) (htype : IsReturnType type)
    (hname : IsName name) (hline : '\n' ∉ parameters) (hbrace : '{' ∉ parameters) :
    (f.name = .ok (demangle (forkLead ++ name)) ∧ f.returnType = .ok type ∧
      f.parameters = .ok (Cpp.parameters parameters)) ∧
    (∀ ds : List Text, parameters = Text.join "," ds →
      (∀ d ∈ ds, IsBalanced d ∧ NoOuterComma d ∧ Text.trim d ≠ []) →
      f.parameters = .ok ((ds.map parseParameter).filter (·.name != receiverName))) ∧
    (∀ ps : List WrittenParameter, parameters = Text.join ", " (ps.map (·.text)) →
      (∀ p ∈ ps, p.WellFormed) →
      f.parameters = .ok ((ps.map (·.toVariable)).filter (·.name != receiverName))) ∧
    ∀ g : FunctionSource, g.IsForkable (forkableLine type name parameters) →
      g.name = f.name ∧ g.returnType = f.returnType ∧ g.parameters = f.parameters := by
  have hsig := hf.signature htype hname hline hbrace
  refine ⟨hsig, fun ds hds h => ?_, fun ps hps h => ?_, fun g hg => ?_⟩
  · have hread := parameters_join (fun d hd => ⟨(h d hd).1, (h d hd).2.1⟩) fun d hd => (h d hd).2.2
    rw [hsig.2.2, hds, hread]
  · have hread := WrittenParameter.parameters_join_text h
    rw [hsig.2.2, hps]
    exact congrArg Except.ok hread
  · obtain ⟨hn, ht, hp⟩ := hg.signature htype hname hline hbrace
    exact ⟨hn.trans hsig.1.symm, ht.trans hsig.2.1.symm, hp.trans hsig.2.2.symm⟩

/-- A plain definition stands before the forkable one, and the marker behind it. -/
theorem signature_forkable_wait :
    let f : FunctionSource := ⟨.ofText "wait.cpp", ".h", fileWith "void f$wait(int64_t v$id) \x7b\n\x7d\n"
      (forkableLine "int64_t" "wait" "int64_t v$id, double const &v$timeout")
      "\x7d\nclass f_wait final : public Resumable \x7b\n\x7d;\n"⟩
    f.name = .ok "wait" ∧ f.returnType = .ok "int64_t" ∧
      f.parameters = .ok [⟨"$id", "int64_t"⟩, ⟨"$timeout", "double"⟩] := by
  intro f
  have hf : f.IsForkable (forkableLine "int64_t" "wait" "int64_t v$id, double const &v$timeout") :=
    ⟨by decide +kernel, _, _, rfl, by simp [IsWholeLines], by decide +kernel⟩
  have htype : IsReturnType "int64_t" :=
    ⟨by decide, ⟨'i', by decide, by decide⟩, by decide, by decide, by decide⟩
  have hname : IsName "wait" := ⟨by decide, List.all_eq_true.1 (by decide)⟩
  obtain ⟨⟨hn, ht, hv⟩, -⟩ := signature_forkable hf htype hname (by decide) (by decide)
  exact ⟨hn.trans (congrArg Except.ok (by decide +kernel)), ht,
    hv.trans (congrArg Except.ok (by decide +kernel))⟩

end FunctionSource

theorem readFunctionName_plain {t : FileTree} {p : Path} {content : Bytes} {l : DefinitionLine}
    {before rest : Text} (hread : t.read p = .ok content) (hl : l.WellFormed)
    (hlead : l.lead = functionLead) (h : l.IsPlainIn before rest (Utf8.readLossy content)) :
    readFunctionName t p = .ok (demangle l.identifier) := by
  have hsource : readSource t p = .ok (Utf8.readLossy content) := by rw [readSource, hread]
  rw [readFunctionName, FunctionSource.ofFile, hsource]
  exact FunctionSource.name_plain (f := ⟨p, ".h", Utf8.readLossy content⟩) h hl hlead

end GenScope.Cpp
