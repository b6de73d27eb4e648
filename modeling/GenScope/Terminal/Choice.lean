import GenScope.Terminal.Menu

/-!
# Choosing from a menu

The menu is shown until a key closes it. When no key can be read, the menu is cancelled as by any
other key, so that choosing always comes to an end.
-/

namespace GenScope

namespace Choice

def source : Text := "ui.menu"

/-- Hands keys to an open menu until one closes it. -/
def loop (m : SelectionMenu) (k : Keyboard) : SelectionMenu × Keyboard :=
  match _h : k.readKey with
  | (some key, k') =>
    match m.handleKey key with
    | (m, true) => (m, k')
    | (m, false) => loop m k'
  | (none, k') => ((m.handleKey .other).1, k')
termination_by k.events.length
decreasing_by
  have := @Keyboard.length_readKey_lt k key (by rw [_h])
  rwa [_h] at this

/-- Lets the user choose one of some labels. There is no choice without a terminal. -/
def choose (labels : List Text) (k : Keyboard) :
    Logged (Except MenuError (Option Nat) × Keyboard) :=
  match SelectionMenu.new.opened labels with
  | .error e => pure (.error e, k)
  | .ok m =>
    let k := k.start
    if k.started then do
      let (m, k) := loop m k
      return (.ok m.result, ← k.stop)
    else do
      Logged.write .warning source "Terminal does not support interactive selection"
      return (.ok none, ← k.stop)

end Choice

end GenScope
