import GenScope.Proofs.Cpp.Continuation

/-!
# Comment lines put in

Only the search for local variables works on the text without its comment lines, and it never sees a
comment line that is put in (`stripComments_insert`). The marker, the definition and the return type
are searched in the whole text. They stay what they are if the comment holds no marker, the searches
pass over it (`PassesOver`) and the line behind it does not begin with a call: `comment_hidden`.
-/

section Related

variable {α β γ δ : Type} {r : α → β → Prop} {r' : γ → δ → Prop} {a a' : Option α}
  {b b' : Option β}

theorem Option.Rel.or (h : Option.Rel r a b) (h' : Option.Rel r a' b') : Option.Rel r (a.or a') (b.or b') := by
  cases h with
  | none => exact h'
  | some h => exact .some h

theorem Option.Rel.map {f : α → γ} {g : β → δ} (h : Option.Rel r a b) (hfg : ∀ {x y}, r x y → r' (f x) (g y)) :
    Option.Rel r' (a.map f) (b.map g) := by
  cases h with
  | none => exact .none
  | some h => exact .some (hfg h)

end Related

namespace GenScope.Cpp

open Text (isBlank isWordChar isIdentChar IsWholeLines)

variable {before w after lead s t : Text}

/-- The comment line that holds a text. -/
def commentLine (w : Text) : Text := "//" ++ (w ++ ['\n'])

theorem commentLine_eq (w : Text) : commentLine w = '/' :: '/' :: (w ++ ['\n']) := rfl

theorem commentLine_append (w s : Text) : commentLine w ++ s = '/' :: '/' :: (w ++ '\n' :: s) := by
  simp [commentLine_eq]

theorem isWholeLines_commentLine (w : Text) : IsWholeLines (commentLine w) := by
  intro c hc
  rw [commentLine, ← List.append_assoc, List.getLast?_concat] at hc
  exact (Option.some.inj hc).symm

/-! ### Stripping -/

theorem endedLines_append (hs : IsWholeLines s) (t : Text) : endedLines (s ++ t) = endedLines s ++ endedLines t := by
  induction s with
  | nil => rfl
  | cons c s ih =>
    have ih := ih (hs.of_append (s := [c]))
    rw [List.cons_append, endedLines, endedLines, ih]
    split
    · rfl
    · rename_i hc
      cases hline : endedLines s with
      | nil =>
        have hnil : s = [] := by rw [← flatten_endedLines s, hline]; rfl
        exact absurd (hs c (by simp [hnil])) hc
      | cons l ls => rfl

theorem endedLines_line (h : '\n' ∉ s) : endedLines (s ++ ['\n']) = [s ++ ['\n']] := by
  induction s with
  | nil => rfl
  | cons c s ih =>
    obtain ⟨hc, hs⟩ := not_or.1 (mt List.mem_cons.2 h)
    rw [List.cons_append, endedLines, if_neg (Ne.symm hc), ih hs]

theorem isCommentLine_commentLine (hne : w ≠ []) : isCommentLine (commentLine w) = true := by
  have hlen : 0 < w.length := List.length_pos_iff.2 hne
  have hend : (commentLine w).endsWith "\n" = true := Text.endsWith_iff.2 ⟨"//" ++ w, by simp [commentLine]⟩
  rw [isCommentLine, hend, commentLine_eq]
  simp [Text.startsWith]
  omega

theorem stripComments_insert (hbefore : IsWholeLines before) (hne : w ≠ []) (hline : '\n' ∉ w) (after : Text) :
    stripComments (before ++ (commentLine w ++ after)) = stripComments (before ++ after) := by
  have hcomment : endedLines (commentLine w) = [commentLine w] := by
    rw [commentLine, ← List.append_assoc]
    exact endedLines_line (by simpa using hline)
  rw [stripComments, stripComments, endedLines_append hbefore, endedLines_append hbefore,
    endedLines_append (isWholeLines_commentLine w), hcomment]
  simp [isCommentLine_commentLine hne]

/-! ### The search for a definition -/

/-- A definition begins in the text, behind white space; what follows the text may complete it. -/
def BeginsDefinition (lead s rest : Text) : Prop :=
  ∃ u b v d, s = u ++ b :: v ∧ isBlank b = true ∧ Declaration.at? lead (v ++ rest) = some d

/-- The texts meet between a closing bracket and the brace of a body. -/
def MeetInGap (before after : Text) : Prop :=
  ∃ u gap gap' rest, before = u ++ ')' :: gap ∧ after = gap' ++ '{' :: rest ∧ BodyGap (gap ++ gap')

/-- A search for definitions passes over the comment: it has found one before, or the comment neither
begins one nor stands between a closing bracket and the brace of a body. -/
def PassesOver (lead before w after : Text) : Prop :=
  (Declaration.find? lead before).isSome = true ∨
    ¬ BeginsDefinition lead w ('\n' :: after) ∧ ¬ MeetInGap before after

theorem MeetInGap.cons (h : MeetInGap before after) (b : Char) : MeetInGap (b :: before) after := by
  obtain ⟨u, gap, gap', rest, rfl, hafter, hgap⟩ := h
  exact ⟨b :: u, gap, gap', rest, rfl, hafter, hgap⟩

/-- The two definitions are the same, in the text with the comment and in the text without it. -/
inductive Inserted (before comment after : Text) : Declaration → Declaration → Prop
  | front {x y identifier parameters : Text} : before = x ++ y → y ≠ [] →
      Inserted before comment after ⟨x, identifier, parameters, y ++ after⟩
        ⟨x, identifier, parameters, y ++ (comment ++ after)⟩
  | behind {x y identifier parameters : Text} : after = x ++ y →
      Inserted before comment after ⟨before ++ x, identifier, parameters, y⟩
        ⟨before ++ (comment ++ x), identifier, parameters, y⟩

theorem Inserted.cons {comment : Text} {d e : Declaration} (h : Inserted before comment after d e) (b : Char) :
    Inserted (b :: before) comment after { d with before := b :: d.before } { e with before := b :: e.before } := by
  cases h with
  | front hsplit hne => exact .front (by rw [hsplit]; rfl) hne
  | behind hsplit => exact .behind hsplit

theorem Inserted.signature {comment : Text} {d e : Declaration} (h : Inserted before comment after d e) :
    e.identifier = d.identifier ∧ e.parameters = d.parameters := by
  cases h <;> exact ⟨rfl, rfl⟩

/-- A comment behind a closing bracket opens no body, and hides none unless it stands before the
brace. -/
theorem opensBody_insert {u : Text} (hgap : ¬ MeetInGap (u ++ ')' :: (s ++ ['\n'])) after) :
    opensBody (s ++ '\n' :: after) = opensBody (s ++ '\n' :: (commentLine w ++ after)) := by
  have hcut : ∀ z, s ++ '\n' :: z = (s ++ ['\n']) ++ z := by simp
  rw [hcut after, hcut (commentLine w ++ after), Bool.eq_iff_iff, opensBody_append_iff (t := after),
    opensBody_append_iff (t := commentLine w ++ after)]
  refine or_congr_right (iff_of_false ?_ ?_)
  · rintro ⟨gap', rest, hafter, h⟩
    exact hgap ⟨u, s ++ ['\n'], gap', rest, rfl, hafter, h⟩
  · rintro ⟨gap', rest, hcomment, h⟩
    rw [commentLine_append] at hcomment
    cases gap' with
    | nil => exact absurd (List.cons.inj hcomment).1 (by decide)
    | cons c gap' =>
      obtain ⟨rfl, -⟩ := List.cons.inj hcomment
      rcases h.isBlank_or_mem '/' (by simp) with hb | hb <;> exact absurd hb (by decide)

theorem at?_commentLine (hlead : lead = functionLead ∨ lead = forkLead) (s : Text) :
    Declaration.at? lead (commentLine w ++ s) = none := by
  refine Declaration.at?_eq_none_of_not_isPrefix fun hp => ?_
  have hhead : lead.head? = some 'f' := by rcases hlead with rfl | rfl <;> decide
  obtain ⟨name, rfl⟩ := List.head?_eq_some_iff.1 hhead
  rw [commentLine_append] at hp
  exact absurd (List.cons_prefix_cons.1 hp).1 (by decide)

theorem at?_eq_none_of_not_isCall (hlead : lead = functionLead ∨ lead = forkLead) (h : ¬ IsCall ('\n' :: s)) :
    Declaration.at? lead s = none := by
  rw [Option.eq_none_iff_forall_ne_some]
  intro d hd
  obtain ⟨rest, hcall, -⟩ := Declaration.of_at?_eq_some hd
  refine h (startsCall_iff.1 ?_)
  rw [startsCall, callHead?_functionLead hlead hcall]
  rfl

theorem not_mem_of_lead {c : Char} (hlead : lead = functionLead ∨ lead = forkLead) (hc : c ∉ forkLead) :
    c ∉ lead := by
  rcases hlead with rfl | rfl
  · have hfork : functionLead <+: forkLead := by decide
    exact fun h => hc (hfork.subset h)
  · exact hc

theorem not_beginsDefinition_commentLine (hlead : lead = functionLead ∨ lead = forkLead)
    (hcomment : ¬ BeginsDefinition lead w ('\n' :: after)) (hcall : ¬ IsCall ('\n' :: after)) :
    ¬ BeginsDefinition lead (commentLine w) after := by
  rintro ⟨u, b, v, d, h, hb, hd⟩
  have hslash : b ≠ '/' := by rintro rfl; exact absurd hb (by decide)
  rw [commentLine_eq] at h
  match u with
  | [] => exact hslash (List.cons.inj h).1.symm
  | [_] => exact hslash (List.cons.inj (List.cons.inj h).2).1.symm
  | _ :: _ :: u =>
    have h : w ++ ['\n'] = u ++ b :: v := (List.cons.inj (List.cons.inj h).2).2
    rcases List.eq_nil_or_concat v with rfl | ⟨v, c, rfl⟩
    · rw [List.nil_append, at?_eq_none_of_not_isCall hlead hcall] at hd
      cases hd
    · have h : w ++ ['\n'] = (u ++ b :: v) ++ [c] := by simpa using h
      obtain ⟨hw, hc⟩ := List.append_inj' h rfl
      obtain rfl := List.singleton_inj.1 hc
      exact hcomment ⟨u, b, v, d, hw, hb, by simpa using hd⟩

theorem at?_insert (hlead : lead = functionLead ∨ lead = forkLead) (hs : IsWholeLines s)
    (hcall : ¬ IsCall ('\n' :: after)) (hgap : ¬ MeetInGap s after) :
    Option.Rel (Inserted s (commentLine w) after) (Declaration.at? lead (s ++ after))
      (Declaration.at? lead (s ++ (commentLine w ++ after))) := by
  by_cases hnil : s = []
  · subst hnil
    rw [List.nil_append, List.nil_append, at?_eq_none_of_not_isCall hlead hcall, at?_commentLine hlead]
    exact .none
  · obtain ⟨u, rfl⟩ := hs.eq_append hnil
    have hopen : ∀ x v, u = x ++ ')' :: v →
        opensBody (v ++ '\n' :: after) = opensBody (v ++ '\n' :: (commentLine w ++ after)) := by
      rintro x v rfl
      exact opensBody_insert (u := x) (by simpa using hgap)
    have hat := Declaration.at?_append_newline (not_mem_of_lead hlead (by decide)) hopen
    rw [List.append_assoc, List.append_assoc, List.singleton_append, List.singleton_append, hat]
    cases hd : Declaration.at? lead (u ++ '\n' :: after) with
    | none => exact .none
    | some d =>
      obtain ⟨-, -, -, hbefore, hrest⟩ := Declaration.of_at?_eq_some hd
      obtain ⟨_, identifier, parameters, _⟩ := d
      obtain rfl := hbefore
      obtain rfl := hrest
      have hfront : Inserted (u ++ ['\n']) (commentLine w) after ⟨[], identifier, parameters, u ++ ['\n'] ++ after⟩
          ⟨[], identifier, parameters, u ++ ['\n'] ++ (commentLine w ++ after)⟩ := .front rfl hnil
      exact .some (by simpa using hfront)

theorem find?_insert (hlead : lead = functionLead ∨ lead = forkLead) (hbefore : IsWholeLines before)
    (hpass : PassesOver lead before w after) (hcall : ¬ IsCall ('\n' :: after)) :
    Option.Rel (Inserted before (commentLine w) after) (Declaration.find? lead (before ++ after))
      (Declaration.find? lead (before ++ (commentLine w ++ after))) := by
  have hline : '\n' ∉ lead := not_mem_of_lead hlead (by decide)
  rcases hpass with hfound | ⟨hcomment, hgap⟩
  · obtain ⟨d, hd⟩ := Option.isSome_iff_exists.1 hfound
    obtain ⟨hsplit, -, hat⟩ := Declaration.of_find?_eq_some hd
    have hne : d.rest ≠ [] := by
      obtain ⟨_, _, -, -, -, -, hrest, -⟩ := Declaration.shape_of_at?_eq_some hat
      rw [hrest]
      simp
    have hfind := Declaration.find?_append_of_eq_some hline (not_mem_of_lead hlead (by decide)) hbefore hd
    rw [hfind, hfind]
    exact .some (.front hsplit hne)
  · induction before with
    | nil =>
      have hnone : ∀ u b v, isBlank b = true → commentLine w = u ++ b :: v →
          Declaration.at? lead (v ++ after) = none := by
        intro u b v hb huv
        rw [Option.eq_none_iff_forall_ne_some]
        exact fun d hd => not_beginsDefinition_commentLine hlead hcomment hcall ⟨u, b, v, d, huv, hb, hd⟩
      rw [List.nil_append, List.nil_append, Declaration.find?_append hnone]
      cases hd : Declaration.find? lead after with
      | none => exact .none
      | some d =>
        obtain ⟨hsplit, -, -⟩ := Declaration.of_find?_eq_some hd
        exact .some (.behind hsplit)
    | cons b before ih =>
      have hlines : IsWholeLines before := hbefore.of_append (s := [b])
      have hgap : ¬ MeetInGap before after := fun h => hgap (h.cons b)
      have hhere : Option.Rel (Inserted before (commentLine w) after)
          (if isBlank b then Declaration.at? lead (before ++ after) else none)
          (if isBlank b then Declaration.at? lead (before ++ (commentLine w ++ after)) else none) := by
        split
        · exact at?_insert hlead hlines hcall hgap
        · exact .none
      exact (hhere.or (ih hlines hgap)).map fun h => h.cons b

/-! ### The search for a type -/

theorem typeFrom?_false_line (h : '\n' ∉ s) (t : Text) : typeFrom? false (s ++ '\n' :: t) = typeFrom? true t := by
  induction s with
  | nil => rfl
  | cons c s ih =>
    obtain ⟨hc, hs⟩ := not_or.1 (mt List.mem_cons.2 h)
    rw [List.cons_append, typeFrom?_false_cons (Ne.symm hc), ih hs]

theorem typeFrom?_commentLine (hline : '\n' ∉ w) (s : Text) :
    typeFrom? true (commentLine w ++ s) = typeFrom? true s := by
  have hnone : typeAtLine? (commentLine w ++ s) = none := by
    rw [commentLine_append, typeAtLine?, if_neg (by decide)]
  rw [typeFrom?_true, hnone, Option.none_or, commentLine_append, ← List.cons_append, ← List.cons_append]
  exact typeFrom?_false_line (by simp [hline]) s

theorem not_isCall_commentLine (w s : Text) : ¬ IsCall ('\n' :: (commentLine w ++ s)) := by
  rintro ⟨b, name, rest, h, -⟩
  rw [commentLine_append] at h
  exact absurd (List.cons.inj (List.cons.inj h).2).1 (by decide)

/-- The comment is put in behind the line where the search starts, or in front of it. -/
theorem typeFrom?_insert (hs : IsWholeLines s) (hline : '\n' ∉ w) (hcall : ¬ IsCall ('\n' :: after))
    {atLineStart : Bool} (hstart : s = [] → atLineStart = true) :
    typeFrom? atLineStart (s ++ (commentLine w ++ after)) = typeFrom? atLineStart (s ++ after) := by
  induction s generalizing atLineStart with
  | nil =>
    rw [hstart rfl]
    exact typeFrom?_commentLine hline after
  | cons c s ih =>
    have hnext : s = [] → (c == '\n') = true := by
      rintro rfl
      exact beq_iff_eq.2 (hs c rfl)
    have ih := ih (hs.of_append (s := [c])) hnext
    have hhere : typeAtLine? (c :: s ++ (commentLine w ++ after)) = typeAtLine? (c :: s ++ after) := by
      obtain ⟨u, hu⟩ := hs.eq_append (by simp)
      rw [hu, List.append_assoc, List.append_assoc]
      exact typeAtLine?_append_newline (not_isCall_commentLine w after) hcall u
    rw [List.cons_append, List.cons_append] at hhere ⊢
    rw [typeFrom?, typeFrom?, ih, hhere]

theorem returnType?_insert (hs : IsWholeLines s) (hline : '\n' ∉ w) (hcall : ¬ IsCall ('\n' :: after)) :
    returnType? (s ++ (commentLine w ++ after)) = returnType? (s ++ after) := by
  rw [returnType?, returnType?, typeFrom?_insert hs hline hcall fun _ => rfl]

theorem Inserted.returnType?_fromLine {d e : Declaration} (h : Inserted before (commentLine w) after d e)
    (hbefore : IsWholeLines before) (hline : '\n' ∉ w) (hcall : ¬ IsCall ('\n' :: after)) :
    returnType? e.fromLine = returnType? d.fromLine := by
  cases h with
  | @front x y identifier parameters hsplit hne =>
    have hlines : IsWholeLines (Text.lastLine x ++ y) := by
      intro c hc
      obtain ⟨u, hu⟩ := (hsplit ▸ hbefore).of_append.eq_append hne
      rw [hu, ← List.append_assoc, List.getLast?_concat] at hc
      exact (Option.some.inj hc).symm
    have := returnType?_insert hlines hline hcall
    rwa [List.append_assoc, List.append_assoc] at this
  | @behind x y identifier parameters hsplit =>
    have hcomment : IsWholeLines (before ++ commentLine w) := hbefore.append (isWholeLines_commentLine w)
    rw [Declaration.fromLine, Declaration.fromLine, ← List.append_assoc before,
      Text.lastLine_append_of_isWholeLines hbefore, Text.lastLine_append_of_isWholeLines hcomment]

/-! ### The function -/

/-- Nothing that is asked about a function sees the comment. -/
structure IsHidden (before w after : Text) : Prop where
  marker : resumableMarker <:+: w → resumableMarker <:+: before ++ after
  plain : PassesOver functionLead before w after
  forkable : resumableMarker <:+: before ++ after → PassesOver forkLead before w after
  call : ¬ IsCall ('\n' :: after)

theorem marker_insert_iff (hbefore : IsWholeLines before) : resumableMarker <:+: before ++ (commentLine w ++ after) ↔
    resumableMarker <:+: w ∨ resumableMarker <:+: before ++ after := by
  have hmarker : '\n' ∉ resumableMarker := by decide
  have hcomment : resumableMarker <:+: commentLine w ↔ resumableMarker <:+: w := by
    have hslash : ∀ t, ¬ resumableMarker <+: '/' :: t := by
      intro t h
      have hhead : resumableMarker = 'p' :: ("ublic Resumable" : Text) := by decide
      rw [hhead, List.cons_prefix_cons] at h
      exact absurd h.1 (by decide)
    have hnil : ¬ resumableMarker <:+: [] := by rw [List.infix_nil]; decide
    rw [commentLine_eq, List.infix_cons_iff, List.infix_cons_iff, Text.infix_append_newline_iff hmarker]
    simp only [hslash, hnil, false_or, or_false]
  rw [Text.infix_append_iff hmarker hbefore, Text.infix_append_iff hmarker (isWholeLines_commentLine w), hcomment,
    Text.infix_append_iff hmarker hbefore]
  tauto

namespace FunctionSource

variable {path : Path} {ext : Text}

theorem isResumable_insert_iff (hbefore : IsWholeLines before) :
    isResumable ⟨path, ext, before ++ (commentLine w ++ after)⟩ = isResumable ⟨path, ext, before ++ after⟩ ↔
      (resumableMarker <:+: w → resumableMarker <:+: before ++ after) := by
  rw [Bool.eq_iff_iff, isResumable, isResumable, Text.occursIn_iff, Text.occursIn_iff, marker_insert_iff hbefore]
  tauto

theorem declaration?_insert (hbefore : IsWholeLines before) (h : IsHidden before w after) :
    Option.Rel (Inserted before (commentLine w) after) (declaration? ⟨path, ext, before ++ after⟩)
      (declaration? ⟨path, ext, before ++ (commentLine w ++ after)⟩) := by
  have hplain := find?_insert (.inl rfl) hbefore h.plain h.call
  rw [declaration?, declaration?, (isResumable_insert_iff hbefore).2 h.marker]
  dsimp only
  split
  · rename_i hres
    have hforkable := h.forkable (Text.occursIn_iff.1 hres)
    exact (find?_insert (.inr rfl) hbefore hforkable h.call).or hplain
  · exact hplain

/-- A comment line that is hidden changes nothing that is read of a function. -/
theorem comment_hidden (path : Path) (ext : Text) (hbefore : IsWholeLines before) (hne : w ≠ []) (hline : '\n' ∉ w)
    (h : IsHidden before w after) :
    let f : FunctionSource := ⟨path, ext, before ++ after⟩
    let g : FunctionSource := ⟨path, ext, before ++ (commentLine w ++ after)⟩
    g.name = f.name ∧ g.isResumable = f.isResumable ∧ g.returnType = f.returnType ∧
      g.parameters = f.parameters ∧ g.localVars = f.localVars := by
  intro f g
  have hres : g.isResumable = f.isResumable := (isResumable_insert_iff hbefore).2 h.marker
  have hlocals : g.localVars = f.localVars := by
    rw [localVars, localVars, indent, indent, hres, localVars?, localVars?, stripComments_insert hbefore hne hline]
  have hdecl : Option.Rel _ f.declaration? g.declaration? := declaration?_insert hbefore h
  simp only [name, parameters, declaration, returnType]
  generalize f.declaration? = d at hdecl ⊢
  generalize g.declaration? = e at hdecl ⊢
  cases hdecl with
  | none =>
    have htype : returnType? g.text = returnType? f.text := returnType?_insert hbefore hline h.call
    exact ⟨rfl, hres, by rw [htype], rfl, hlocals⟩
  | some hde =>
    have htype := hde.returnType?_fromLine hbefore hline h.call
    obtain ⟨hident, hparams⟩ := hde.signature
    exact ⟨congrArg (fun i => Except.ok (demangle i)) hident, hres, by rw [htype],
      congrArg (fun ps => Except.ok (Cpp.parameters ps)) hparams, hlocals⟩

/-- Behind the definition a comment may quote what looks like another one. -/
theorem comment_hidden_in_body :
    let before : Text := "int64_t f$a(int64_t v$n) \x7b\n  int64_t v$m;\n"
    let w : Text := "2: f$b($n) \x7b"
    let after : Text := "  v$m = f$b(v$n);\n  return v$m;\n\x7d\n"
    let g : FunctionSource := ⟨.ofText "a.cpp", ".h", before ++ (commentLine w ++ after)⟩
    g.name = .ok "a" ∧ g.isResumable = false ∧ g.returnType = .ok "int64_t" ∧
      g.parameters = .ok [⟨"$n", "int64_t"⟩] ∧ g.localVars = .ok [⟨"$m", "int64_t"⟩] := by
  intro before w after g
  have hidden : IsHidden before w after :=
    ⟨fun h => absurd h (by decide +kernel), .inl (by decide +kernel), fun h => absurd h (by decide +kernel),
      fun h => absurd (startsCall_iff.2 h) (by decide)⟩
  have hbefore : IsWholeLines before := fun c hc => Option.some.inj (hc.symm.trans (by decide))
  obtain ⟨hn, hr, ht, hp, hl⟩ :=
    comment_hidden (.ofText "a.cpp") ".h" hbefore (by decide) (by decide) hidden
  exact ⟨hn.trans (by decide +kernel), hr.trans (by decide +kernel), ht.trans (by decide +kernel),
    hp.trans (by decide +kernel), hl.trans (by decide +kernel)⟩

/-- In front of the definition the same comment gives the name, and the marker makes the function
resumable. -/
theorem comment_hidden_in_front :
    let text : Text := "int64_t f$a() \x7b\n\x7d\n"
    let f : FunctionSource := ⟨.ofText "a.cpp", ".h", [] ++ text⟩
    let g : FunctionSource := ⟨.ofText "a.cpp", ".h", [] ++ (commentLine "1: f$x() \x7b" ++ text)⟩
    let h : FunctionSource := ⟨.ofText "a.cpp", ".h", [] ++ (commentLine "1: public Resumable" ++ text)⟩
    (f.name = .ok "a" ∧ g.name = .ok "x") ∧ f.isResumable = false ∧ h.isResumable = true := by
  intro text f g h
  exact ⟨⟨by decide +kernel, by decide +kernel⟩, by decide +kernel, by decide +kernel⟩

end FunctionSource

end GenScope.Cpp
