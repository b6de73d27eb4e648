import GenScope.Log
import GenScope.Terminal.Key

/-!
# Reading keys

Keys are read from a terminal in a mode in which every byte arrives at once. What the terminal will
do is a list of events. After an escape, up to two more bytes belong to the keypress if they arrive
without a pause. Reading a key never adds an event (`length_readKey_le`).
-/

namespace GenScope

/-- What a terminal does when it is asked for input. -/
inductive InputEvent
  | byte (b : UInt8)
  /-- Nothing arrives in time. -/
  | pause
  | endOfInput
  | failure
deriving DecidableEq, Repr

/-- How a terminal treats its settings. -/
inductive TerminalKind
  | ordinary
  /-- There is no terminal, so that the settings cannot be read. -/
  | absent
  /-- The settings cannot be restored. -/
  | stuck
deriving DecidableEq, Repr

/-- What a reader asks of a terminal besides input. -/
inductive TerminalCall
  | readSettings
  | enterKeyMode
  | restoreSettings
deriving DecidableEq, Repr

structure Keyboard where
  kind : TerminalKind
  events : List InputEvent
  /-- The settings from before are kept to be restored. -/
  saved : Bool
  started : Bool
  /-- The calls so far, in order. -/
  calls : List TerminalCall
deriving DecidableEq, Repr

namespace Keyboard

def source : Text := "ui.keyboard"

def ofEvents (kind : TerminalKind) (events : List InputEvent) : Keyboard :=
  ⟨kind, events, false, false, []⟩

/-- Enters the mode for reading keys, if there is a terminal. -/
def start (k : Keyboard) : Keyboard :=
  if k.started then k
  else match k.kind with
    | .absent => { k with saved := false, calls := k.calls ++ [.readSettings] }
    | _ => { k with
        saved := true
        started := true
        calls := k.calls ++ [.readSettings, .enterKeyMode] }

/-- Leaves the mode for reading keys. -/
def stop (k : Keyboard) : Logged Keyboard :=
  if k.saved then do
    if k.kind = .stuck then
      Logged.write .debug source "Cannot restore terminal settings"
    return { k with saved := false, started := false, calls := k.calls ++ [.restoreSettings] }
  else pure { k with started := false }

/-- What came of waiting for a byte. -/
inductive Arrival
  | byte (b : UInt8)
  | nothing
  | failure
deriving DecidableEq, Repr

/-- Waits for a byte. A pause is over once it was waited for. -/
def arrival : List InputEvent → Arrival × List InputEvent
  | [] => (.nothing, [])
  | .byte b :: es => (.byte b, es)
  | .pause :: es => (.nothing, es)
  | .endOfInput :: es => (.nothing, es)
  | .failure :: es => (.failure, es)

/-- Reads at most so many bytes that arrive without a pause; none is the result of a failure. -/
def burst : Nat → List InputEvent → Option Bytes × List InputEvent
  | 0, es => (some [], es)
  | n + 1, es =>
    match arrival es with
    | (.byte b, es) =>
      let (bytes, es) := burst n es
      (bytes.map (b :: ·), es)
    | (.nothing, es) => (some [], es)
    | (.failure, es) => (none, es)

/-- The number of bytes that may follow an escape. -/
def maxSequence : Nat := 2

/-- The keypress that arrives first, if one does. -/
def keypress (es : List InputEvent) : Option Bytes × List InputEvent :=
  match arrival es with
  | (.byte b, es) =>
    if b = 0x1b then
      let (bytes, es) := burst maxSequence es
      (bytes.map (b :: ·), es)
    else (some [b], es)
  | (_, es) => (none, es)

/-- Reads a key. There is none if reading has not started, and none at the end of the input. -/
def readKey (k : Keyboard) : Option Key × Keyboard :=
  if k.started then
    let (bytes, es) := keypress k.events
    (bytes.map fun bs => Key.decode (Utf8.decodeLossy bs), { k with events := es })
  else (none, k)

/-! ### Events are used up -/

theorem length_arrival_le (es : List InputEvent) : (arrival es).2.length ≤ es.length := by
  cases es with
  | nil => simp [arrival]
  | cons e es => cases e <;> simp [arrival]

theorem length_arrival_lt {es : List InputEvent} {b : UInt8} (h : (arrival es).1 = .byte b) :
    (arrival es).2.length < es.length := by
  cases es with
  | nil => simp [arrival] at h
  | cons e es => cases e <;> simp [arrival] at h ⊢

theorem length_burst_le (n : Nat) (es : List InputEvent) :
    (burst n es).2.length ≤ es.length := by
  induction n generalizing es with
  | zero => simp [burst]
  | succ n ih =>
    have ha := length_arrival_le es
    rw [burst]
    split <;> rename_i h <;> rw [h] at ha
    · exact Nat.le_trans (ih _) ha
    · exact ha
    · exact ha

theorem length_keypress_le (es : List InputEvent) : (keypress es).2.length ≤ es.length := by
  have ha := length_arrival_le es
  rw [keypress]
  split
  · rename_i h
    rw [h] at ha
    split
    · exact Nat.le_trans (length_burst_le _ _) ha
    · exact ha
  · rename_i h
    rw [h] at ha
    exact ha

theorem length_keypress_lt {es : List InputEvent} {bs : Bytes} (h : (keypress es).1 = some bs) :
    (keypress es).2.length < es.length := by
  rcases ha : arrival es with ⟨a, es'⟩
  cases a with
  | byte b =>
    have hlt := @length_arrival_lt es b (by rw [ha])
    rw [ha] at hlt
    simp only [keypress, ha]
    split
    · exact Nat.lt_of_le_of_lt (length_burst_le _ _) hlt
    · exact hlt
  | nothing => simp [keypress, ha] at h
  | failure => simp [keypress, ha] at h

theorem length_readKey_le (k : Keyboard) : k.readKey.2.events.length ≤ k.events.length := by
  rw [readKey]
  split
  · exact length_keypress_le _
  · exact Nat.le_refl _

/-- Reading a key takes at least one event. -/
theorem length_readKey_lt {k : Keyboard} {key : Key} (h : k.readKey.1 = some key) :
    k.readKey.2.events.length < k.events.length := by
  rw [readKey] at h ⊢
  split
  · rename_i hs
    simp only [hs, if_true] at h
    obtain ⟨bs, hbs, -⟩ := Option.map_eq_some_iff.1 h
    exact length_keypress_lt hbs
  · rename_i hs
    simp [hs] at h

end Keyboard

end GenScope
