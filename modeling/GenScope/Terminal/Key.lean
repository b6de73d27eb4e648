import GenScope.Text.Utf8

/-!
# Keys

A keypress is one character, or an escape followed by a sequence. Arrows, Enter and a lone escape
are told apart, and any other keypress is the same to the program.
-/

namespace GenScope

inductive Key
  | up
  | down
  | left
  | right
  | enter
  | escape
  | other
deriving DecidableEq, Repr

namespace Key

def escapeChar : Char := '\x1b'

/-- The sequences of the arrows, in both modes of a terminal. -/
def sequences : List (Text × Key) := [
  ("[A", .up), ("[B", .down), ("[C", .right), ("[D", .left),
  ("OA", .up), ("OB", .down), ("OC", .right), ("OD", .left)]

/-- The key of one keypress. -/
def decode : Text → Key
  | c :: s =>
    if c = escapeChar then
      if s.isEmpty then .escape else (sequences.lookup s).getD .other
    else if (c = '\r' ∨ c = '\n') ∧ s = [] then .enter
    else .other
  | [] => .other

end Key

end GenScope
