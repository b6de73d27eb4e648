import GenScope.Proofs.Terminal.Keypress
import GenScope.Proofs.Terminal.Menu
import GenScope.Terminal.Choice

/-!
# What a choice comes to

Arrows only move the highlighted line, and the moves add up, wrapping around as often as need be
(`loop_presses`). The keypress behind them closes the menu, and what follows it is not read. A choice is
therefore the net movement of its arrows (`choose_net_movement`).

The wait for the first byte of a keypress has no limit, so that the time in front of it is no event.
-/

namespace GenScope

variable {m m' : SelectionMenu} {k k' : Keyboard} {key : Key} {es rest : List InputEvent} {b : UInt8}
  {labels : List Text}

/-! ### Keypresses of a choice -/

/-- An arrow as a terminal sends it: an escape, `O` or `[`, and the letter of the arrow. -/
structure ArrowPress where
  lead : UInt8
  letter : UInt8
  key : Key
  lead_eq : lead = 0x4f ∨ lead = 0x5b
  letter_eq : Key.arrow? letter = some key

/-- A keypress that closes the menu. -/
inductive ClosingPress
  | byte (b : UInt8) (hb : b ≠ 0x1b)
  /-- An escape that is not followed by anything in time. -/
  | escape
  | endOfInput

def ArrowPress.events (p : ArrowPress) : List InputEvent := [.byte 0x1b, .byte p.lead, .byte p.letter]

def ClosingPress.events : ClosingPress → List InputEvent
  | byte b _ => [.byte b]
  | escape => [.byte 0x1b, .pause]
  | endOfInput => [.endOfInput]

/-- Either line end chooses the highlighted line, and anything else cancels. -/
def ClosingPress.chooses : ClosingPress → Bool
  | byte b _ => b = 0x0d ∨ b = 0x0a
  | _ => false

/-- How many more lines arrows go down than up. -/
def netMovement (keys : List Key) : Int :=
  keys.count .down + keys.count .right - keys.count .up - keys.count .left

theorem netMovement_cons {delta : Int} (hmove : key.move? = some delta) (keys : List Key) :
    netMovement (key :: keys) = delta + netMovement keys := by
  unfold netMovement
  cases key <;> simp [Key.move?] at hmove ⊢ <;> omega

theorem wrapIndex_eq_emod (active delta : Int) {count : Int} (h : 0 < count) :
    wrapIndex active delta count = (active + delta) % count := by
  rw [wrapIndex, Int.fmod_eq_emod_of_nonneg _ (by omega), Int.add_emod_right]

namespace Key

theorem decode_byte (hb : b ≠ 0x1b) :
    decode (Utf8.decodeLossy [b]) = if b = 0x0d ∨ b = 0x0a then .enter else .other := by
  by_cases hascii : b.toNat < 0x80
  · have heq {c : UInt8} (hc : c.toNat < 0x80) : Char.ofNat b.toNat = Char.ofNat c.toNat ↔ b = c :=
      ⟨Utf8.ofNat_toNat_inj hascii hc, fun h => by rw [h]⟩
    have hescape : Char.ofNat b.toNat ≠ escapeChar := mt (heq (c := 0x1b) (by decide)).1 hb
    have hreturn : Char.ofNat b.toNat = '\r' ↔ b = 0x0d := heq (c := 0x0d) (by decide)
    have hfeed : Char.ofNat b.toNat = '\n' ↔ b = 0x0a := heq (c := 0x0a) (by decide)
    rw [Utf8.decodeLossy_cons_ascii hascii]
    show decode [Char.ofNat b.toNat] = _
    simp only [decode_single hescape, hreturn, hfeed]
  · rw [Utf8.decodeLossy_single (by omega), if_neg]
    · rfl
    · rintro (rfl | rfl)
      all_goals exact hascii (by decide)

theorem exists_move_of_arrow? (h : arrow? b = some key) : b.toNat < 0x80 ∧ ∃ delta, key.move? = some delta := by
  unfold arrow? at h
  split at h <;> cases h
  all_goals exact ⟨by decide, _, rfl⟩

end Key

namespace Choice

/-! ### One key -/

theorem loop_eq (m : SelectionMenu) (k : Keyboard) :
    loop m k = match k.readKey with
      | (some key, k') =>
        if (m.handleKey key).2 then ((m.handleKey key).1, k') else loop (m.handleKey key).1 k'
      | (none, k') => ((m.handleKey .other).1, k') := by
  rw [loop]
  split
  · rename_i key k' heq
    simp only [heq]
    rcases m.handleKey key with ⟨m', _ | _⟩
    · rfl
    · rfl
  · rename_i heq
    simp only [heq]

theorem loop_of_open (hread : k.readKey = (some key, k')) (hkey : m.handleKey key = (m', false)) :
    loop m k = loop m' k' := by
  simp [loop_eq m, hread, hkey]

theorem loop_of_closed (hread : k.readKey = (some key, k')) (hkey : m.handleKey key = (m', true)) :
    loop m k = (m', k') := by
  simp [loop_eq, hread, hkey]

theorem loop_of_none (hread : k.readKey = (none, k')) : loop m k = ((m.handleKey .other).1, k') := by
  simp [loop_eq, hread]

/-! ### All keys -/

/-- Arrows leave the menu open and change nothing but the highlighted line. -/
theorem loop_presses (hm : m.Sound) (ho : m.isOpen = true) (hk : k.started = true) (presses : List ArrowPress)
    (hevents : k.events = presses.flatMap ArrowPress.events ++ es) :
    ∃ active : Nat, (active : Int) = (m.active + netMovement (presses.map ArrowPress.key)) % m.labels.length ∧
      loop m k = loop { m with active } { k with events := es } := by
  obtain ⟨hactive, -⟩ := (SelectionMenu.sound_of_isOpen ho).1 hm
  induction presses generalizing m k with
  | nil =>
    refine ⟨m.active, ?_, by rw [← show k.events = es from hevents]⟩
    show (m.active : Int) = (m.active + 0) % m.labels.length
    rw [Int.add_zero, Int.emod_eq_of_lt (by omega) (by omega)]
  | cons p presses ih =>
    obtain ⟨hascii, delta, hmove⟩ := Key.exists_move_of_arrow? p.letter_eq
    have hread := Keyboard.readKey_escape hk hevents
    rw [Key.decode_escape p.lead_eq hascii, p.letter_eq] at hread
    have hkey := SelectionMenu.handleKey_of_move ho hmove
    have hpos : (0 : Int) < m.labels.length := by omega
    have hnonneg := SelectionMenu.wrapIndex_nonneg m.active delta hpos
    have hlt := SelectionMenu.wrapIndex_lt m.active delta hpos
    -- the arrow leads to a line again, from where the other arrows go on
    have hsound := SelectionMenu.sound_handleKey hm p.key
    rw [hkey] at hsound
    obtain ⟨active, hmoved, hloop⟩ := ih (k := { k with events := presses.flatMap ArrowPress.events ++ es }) hsound ho hk
      rfl (by dsimp only; omega)
    refine ⟨active, ?_, (loop_of_open hread hkey).trans hloop⟩
    rw [hmoved, List.map_cons, netMovement_cons hmove]
    dsimp only
    rw [Int.toNat_of_nonneg hnonneg, wrapIndex_eq_emod _ _ hpos, Int.emod_add_emod, Int.add_assoc]

theorem loop_closing (ho : m.isOpen = true) (hk : k.started = true) (closing : ClosingPress)
    (hevents : k.events = closing.events ++ es) :
    loop m k = ({ m with result := if closing.chooses then some m.active else none, isOpen := false },
      { k with events := es }) := by
  cases closing with
  | byte b hb =>
    have hread := Keyboard.readKey_byte hk hb hevents
    rw [Key.decode_byte hb] at hread
    have hmove : (if b = 0x0d ∨ b = 0x0a then Key.enter else .other).move? = none := by split <;> rfl
    rw [loop_of_closed hread (SelectionMenu.handleKey_of_not_move ho hmove)]
    by_cases henter : b = 0x0d ∨ b = 0x0a
    · simp [ClosingPress.chooses, henter]
    · simp [ClosingPress.chooses, henter]
  | escape =>
    have hread : k.readKey = (some .escape, { k with events := es }) := by
      rw [Keyboard.readKey, if_pos hk, hevents]
      rfl
    rw [loop_of_closed hread (SelectionMenu.handleKey_of_not_move ho rfl)]
    rfl
  | endOfInput =>
    have hread : k.readKey = (none, { k with events := es }) := by
      rw [Keyboard.readKey, if_pos hk, hevents]
      rfl
    rw [loop_of_none hread, SelectionMenu.handleKey_of_not_move ho rfl]
    rfl

/-! ### Start and stop -/

theorem events_start (k : Keyboard) : k.start.events = k.events := by
  unfold Keyboard.start
  split
  · rfl
  · split <;> rfl

theorem events_stop (k : Keyboard) : k.stop.value.events = k.events := by
  unfold Keyboard.stop
  split
  · dsimp only
    split <;> rfl
  · rfl

theorem choose_value (hlabels : labels ≠ []) (hk : k.start.started = true) :
    (choose labels k).value =
      (.ok (loop ⟨true, labels, 0, none⟩ k.start).1.result, (loop ⟨true, labels, 0, none⟩ k.start).2.stop.value) := by
  obtain ⟨label, labels, rfl⟩ := List.exists_cons_of_ne_nil hlabels
  show (if k.start.started then _ else _ : Logged _).value = _
  rw [if_pos hk]
  rfl

/-- Arrows and a keypress that closes the menu choose the line to which the net movement leads, if the
keypress is Enter, and none otherwise. Nothing behind the keypress is read. -/
theorem choose_net_movement (hlabels : labels ≠ []) (hk : k.start.started = true) (presses : List ArrowPress)
    (closing : ClosingPress)
    (hevents : k.events = presses.flatMap ArrowPress.events ++ closing.events ++ rest) :
    ∃ (active : Nat) (after : Keyboard),
      (active : Int) = netMovement (presses.map ArrowPress.key) % labels.length ∧ active < labels.length ∧
      (choose labels k).value = (.ok (if closing.chooses then some active else none), after) ∧
      after.events = rest := by
  have hlength := List.length_pos_iff.2 hlabels
  have hsound : SelectionMenu.Sound ⟨true, labels, 0, none⟩ := by simpa [SelectionMenu.Sound] using hlength
  rw [List.append_assoc, ← events_start k] at hevents
  obtain ⟨active, hmoved, hopen⟩ := loop_presses hsound rfl hk presses hevents
  have hactive : (active : Int) = netMovement (presses.map ArrowPress.key) % labels.length := by simpa using hmoved
  have hlt := Int.emod_lt_of_pos (netMovement (presses.map ArrowPress.key)) (b := labels.length) (by omega)
  have hclosed := loop_closing (m := ⟨true, labels, active, none⟩)
    (k := { k.start with events := closing.events ++ rest }) rfl hk closing rfl
  refine ⟨active, Keyboard.stop { k.start with events := rest } |>.value, hactive, by omega, ?_, events_stop _⟩
  rw [choose_value hlabels hk, hopen, hclosed]

/-- Two lines up from the first one of three is the second one. -/
theorem choose_net_movement_up :
    let labels : List Text := ["a", "b", "c"]
    let presses : List ArrowPress := [⟨0x5b, 0x44, .left, .inr rfl, rfl⟩, ⟨0x4f, 0x41, .up, .inl rfl, rfl⟩]
    let closing : ClosingPress := .byte 0x0d (by decide)
    let k : Keyboard := .ofEvents .ordinary (presses.flatMap ArrowPress.events ++ closing.events ++ [.byte 0x78])
    (labels ≠ [] ∧ k.start.started = true ∧
      k.events = presses.flatMap ArrowPress.events ++ closing.events ++ [.byte 0x78]) ∧
    ∃ after, (choose labels k).value = (.ok (some 1), after) ∧ after.events = [.byte 0x78] := by
  intro labels presses closing k
  have hlabels : labels ≠ [] := by decide
  refine ⟨⟨hlabels, rfl, rfl⟩, ?_⟩
  obtain ⟨active, after, hactive, -, hvalue, hrest⟩ :=
    choose_net_movement hlabels (k := k) rfl presses closing rfl
  have hnet : netMovement (presses.map ArrowPress.key) % labels.length = 1 := by decide
  obtain rfl : active = 1 := by omega
  exact ⟨after, hvalue, hrest⟩

end Choice

end GenScope
