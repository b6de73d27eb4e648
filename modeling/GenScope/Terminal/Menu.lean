import GenScope.Terminal.Keyboard
import GenScope.Text.Basic

/-!
# The selection menu

A menu is idle or open. While it is open, arrows move the highlighted line, which wraps around at
both ends, Enter chooses it, and any other key cancels. `SelectionMenu.Sound` holds of a new menu, and
the calls on a menu keep it (`sound_new`, `sound_handleOpen`, `sound_handleKey`).
-/

namespace GenScope

/-- The index that is so far away, wrapping around at both ends. -/
def wrapIndex (active delta count : Int) : Int := (active + delta + count).fmod count

/-- The same, unless there is nothing to wrap around. -/
def nextIndex? (active delta count : Int) : Option Int :=
  if count = 0 then none else some (wrapIndex active delta count)

/-- What is wrong with opening a menu. -/
inductive MenuError
  | alreadyOpen
  | noItems
deriving DecidableEq, Repr

def MenuError.message : MenuError → Text
  | .alreadyOpen => "Selection menu is already open"
  | .noItems => "Selection menu needs at least one item"

structure SelectionMenu where
  isOpen : Bool
  labels : List Text
  /-- The highlighted line. -/
  active : Nat
  /-- The chosen line, once the menu is closed. -/
  result : Option Nat
deriving DecidableEq, Repr

/-- How a key moves the highlighted line. -/
def Key.move? : Key → Option Int
  | .up | .left => some (-1)
  | .down | .right => some 1
  | _ => none

namespace SelectionMenu

def new : SelectionMenu := ⟨false, [], 0, none⟩

/-- Opens the menu with its first line highlighted: the state after the call, whether or not it fails, and
the error if it does. -/
def handleOpen (m : SelectionMenu) (labels : List Text) : SelectionMenu × Option MenuError :=
  if m.isOpen then (m, some .alreadyOpen)
  else if labels.isEmpty then (m, some .noItems)
  else (⟨true, labels, 0, none⟩, none)

/-- The open menu, unless opening it fails. -/
def opened (m : SelectionMenu) (labels : List Text) : Except MenuError SelectionMenu :=
  match m.handleOpen labels with
  | (m, none) => .ok m
  | (_, some e) => .error e

/-- The state after a key, and whether the menu is closed then. -/
def handleKey (m : SelectionMenu) (key : Key) : SelectionMenu × Bool :=
  if m.isOpen then
    match key.move? with
    | some delta =>
      ({ m with active := (wrapIndex m.active delta m.labels.length).toNat }, false)
    | none =>
      ({ m with result := if key = .enter then some m.active else none, isOpen := false }, true)
  else (m, true)

/-! ### The invariant -/

/-- An open menu highlights one of its lines and has chosen none; an idle one may have chosen one
of its lines. -/
def Sound (m : SelectionMenu) : Prop :=
  if m.isOpen then m.active < m.labels.length ∧ m.result = none
  else ∀ n, m.result = some n → n < m.labels.length

theorem wrapIndex_nonneg (active delta : Int) {count : Int} (h : 0 < count) :
    0 ≤ wrapIndex active delta count := Int.fmod_nonneg_of_pos _ h

theorem wrapIndex_lt (active delta : Int) {count : Int} (h : 0 < count) :
    wrapIndex active delta count < count := Int.fmod_lt_of_pos _ h

theorem sound_new : new.Sound := by simp [Sound, new]

theorem sound_handleOpen {m : SelectionMenu} (h : m.Sound) (labels : List Text) :
    (m.handleOpen labels).1.Sound := by
  unfold handleOpen
  split
  · exact h
  · cases labels with
    | nil => exact h
    | cons label labels => simp [Sound]

theorem sound_handleKey {m : SelectionMenu} (h : m.Sound) (key : Key) :
    (m.handleKey key).1.Sound := by
  unfold handleKey
  by_cases ho : m.isOpen
  · simp only [Sound, ho, if_true] at h
    simp only [ho, if_true]
    split
    · rename_i delta hd
      have hpos : (0 : Int) < m.labels.length := by omega
      have hlt := wrapIndex_lt m.active delta hpos
      have hnn := wrapIndex_nonneg m.active delta hpos
      simp only [Sound, if_true]
      exact ⟨by omega, h.2⟩
    · simp only [Sound, Bool.false_eq_true, if_false]
      intro n hn
      split at hn
      · cases hn; exact h.1
      · cases hn
  · simpa [ho] using h

/-! ### Drawing -/

/-- Characters that are not drawn. -/
def isControl (c : Char) : Bool :=
  c == '\x07' || c == '\x08' || c == '\x0b' || c == '\x0c' || c == '\r'

/-- The lines of the menu. -/
def plainText (m : SelectionMenu) : Text :=
  Text.join "\n" (m.labels.map (·.filter (!isControl ·)))

/-- Where the highlighted line starts and ends, unless it is empty. -/
def highlight (m : SelectionMenu) : Option (Nat × Nat) :=
  let shown := m.labels.map fun l => (l.filter (!isControl ·)).length
  match shown[m.active]? with
  | none => none
  | some length =>
    let start := (shown.take m.active).foldl (fun n l => n + l + 1) 0
    if length = 0 then none else some (start, start + length)

end SelectionMenu

end GenScope
