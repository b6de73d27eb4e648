import GenScope.Terminal.Menu

/-!
# What calls can make of a menu

A menu is opened, also again and with other labels, and given keys, in any order. What one call keeps
(`sound_afterCall`) every sequence of calls keeps (`sound_after`): the highlighted and the chosen line are
lines of the labels that the menu was opened with last (`reached_in_range`).
-/

namespace GenScope

/-- A call on a menu, which may fail. -/
inductive MenuCall
  | openWith (labels : List Text)
  | press (key : Key)
deriving DecidableEq, Repr

namespace SelectionMenu

variable {m : SelectionMenu} {labels : List Text} {key : Key} {delta : Int} {e : MenuError}

def afterCall (m : SelectionMenu) : MenuCall → SelectionMenu
  | .openWith labels => (m.handleOpen labels).1
  | .press key => (m.handleKey key).1

/-- The menu after calls, one after another. -/
def after (m : SelectionMenu) (calls : List MenuCall) : SelectionMenu := calls.foldl afterCall m

/-! ### One call -/

theorem sound_of_isOpen (ho : m.isOpen = true) : m.Sound ↔ m.active < m.labels.length ∧ m.result = none := by
  rw [Sound, if_pos ho]

theorem sound_of_not_isOpen (ho : m.isOpen = false) : m.Sound ↔ ∀ n, m.result = some n → n < m.labels.length := by
  rw [Sound, if_neg (by simp [ho])]

theorem handleOpen_fails_iff : (∃ e, (m.handleOpen labels).2 = some e) ↔ m.isOpen = true ∨ labels = [] := by
  unfold handleOpen
  rcases hopen : m.isOpen with _ | _
  · cases labels <;> simp
  · simp

theorem handleOpen_of_fails (h : (m.handleOpen labels).2 = some e) : (m.handleOpen labels).1 = m := by
  unfold handleOpen at h ⊢
  split
  · rfl
  · rename_i hopen
    rw [if_neg hopen] at h
    split
    · rfl
    · rename_i hlabels
      rw [if_neg hlabels] at h
      cases h

theorem handleKey_of_not_isOpen (ho : m.isOpen = false) (key : Key) : m.handleKey key = (m, true) := by
  rw [handleKey, if_neg (by simp [ho])]

theorem handleKey_of_move (ho : m.isOpen = true) (hmove : key.move? = some delta) :
    m.handleKey key = ({ m with active := (wrapIndex m.active delta m.labels.length).toNat }, false) := by
  rw [handleKey, if_pos ho, hmove]

theorem handleKey_of_not_move (ho : m.isOpen = true) (hmove : key.move? = none) :
    m.handleKey key =
      ({ m with result := if key = .enter then some m.active else none, isOpen := false }, true) := by
  rw [handleKey, if_pos ho, hmove]

/-- With a line to highlight, moving does not divide by zero and does not leave the numbers of lines. -/
theorem nextIndex?_of_move (h : m.Sound) (ho : m.isOpen = true) (hmove : key.move? = some delta) :
    nextIndex? m.active delta m.labels.length = some ((m.handleKey key).1.active : Int) := by
  obtain ⟨hactive, -⟩ := (sound_of_isOpen ho).1 h
  have hpos : (0 : Int) < m.labels.length := by omega
  have hnonneg := wrapIndex_nonneg m.active delta hpos
  rw [nextIndex?, if_neg (by omega), handleKey_of_move ho hmove]
  exact congrArg some (Int.toNat_of_nonneg hnonneg).symm

theorem sound_afterCall (h : m.Sound) (call : MenuCall) : (m.afterCall call).Sound := by
  cases call with
  | openWith labels => exact sound_handleOpen h labels
  | press key => exact sound_handleKey h key

/-! ### Any number of calls -/

theorem sound_after (h : m.Sound) (calls : List MenuCall) : (m.after calls).Sound := by
  induction calls generalizing m with
  | nil => exact h
  | cons call calls ih => exact ih (sound_afterCall h call)

/-- Whatever calls a new menu has seen: an open menu has labels, highlights one of them and has chosen none,
an idle one has chosen one of its labels or none, opening fails exactly for an open menu or without labels
and then leaves the menu as it was, and so does any key that is sent to an idle menu, which stays closed. An
arrow moves an open menu to the line that `nextIndex?` gives. -/
theorem reached_in_range (calls : List MenuCall) :
    let m := new.after calls
    (m.isOpen = true → m.labels ≠ [] ∧ m.active < m.labels.length ∧ m.result = none) ∧
    (m.isOpen = false → m.result = none ∨ ∃ n, m.result = some n ∧ n < m.labels.length) ∧
    (∀ labels, (∃ e, (m.handleOpen labels).2 = some e) ↔ m.isOpen = true ∨ labels = []) ∧
    (∀ labels e, (m.handleOpen labels).2 = some e → (m.handleOpen labels).1 = m) ∧
    (m.isOpen = false → ∀ key, m.handleKey key = (m, true)) ∧
    (m.isOpen = true → ∀ key delta, key.move? = some delta →
      nextIndex? m.active delta m.labels.length = some ((m.handleKey key).1.active : Int)) := by
  intro m
  have hsound : m.Sound := sound_after sound_new calls
  refine ⟨fun ho => ?_, fun ho => ?_, fun labels => handleOpen_fails_iff, fun labels e => handleOpen_of_fails,
    handleKey_of_not_isOpen, fun ho key delta => nextIndex?_of_move hsound ho⟩
  · obtain ⟨hactive, hresult⟩ := (sound_of_isOpen ho).1 hsound
    refine ⟨?_, hactive, hresult⟩
    intro hnil
    simp [hnil] at hactive
  · rcases hresult : m.result with _ | n
    · exact .inl rfl
    · exact .inr ⟨n, rfl, (sound_of_not_isOpen ho).1 hsound n hresult⟩

/-- An arrow goes up from the first line to the last one, and a menu that is open is not opened again. -/
theorem reached_in_range_wrapped :
    let m := new.after [.openWith [], .openWith ["a", "b", "c"], .press .up, .openWith ["d"]]
    m = ⟨true, ["a", "b", "c"], 2, none⟩ ∧ m.active < m.labels.length ∧ (m.handleOpen ["d"]).1 = m ∧
      nextIndex? m.active 1 m.labels.length = some ((m.handleKey .down).1.active : Int) := by
  intro m
  have hm : m = ⟨true, ["a", "b", "c"], 2, none⟩ := by decide
  obtain ⟨hopen, -, -, hfails, -, hmoves⟩ :=
    reached_in_range [.openWith [], .openWith ["a", "b", "c"], .press .up, .openWith ["d"]]
  obtain ⟨-, hactive, -⟩ := hopen (by decide)
  exact ⟨hm, hactive, hfails _ .alreadyOpen (by decide), hmoves (by decide) .down 1 (by decide)⟩

end SelectionMenu

end GenScope
