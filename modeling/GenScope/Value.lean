import GenScope.Number.Binary64
import GenScope.Text.Basic

/-!
# Values

What a settings file or a caller gives before it is checked: a number, a text, a list or an object,
whose members keep their order. A member under a key that is not a text names nothing.
-/

namespace GenScope

inductive Value
  | null
  | boolean (b : Bool)
  | integer (n : Int)
  | number (x : Binary64)
  | text (s : Text)
  | list (items : List Value)
  | object (members : List (Option Text × Value))
  /-- A value of another type, such as a date, which is never empty. -/
  | other (typeName : Text)

namespace Value

/-- The name of the value's type in messages. -/
def typeName : Value → Text
  | .null => "NoneType"
  | .boolean _ => "bool"
  | .integer _ => "int"
  | .number _ => "float"
  | .text _ => "str"
  | .list _ => "list"
  | .object _ => "dict"
  | .other name => name

/-- Nothing, zero, or empty. -/
def isEmpty : Value → Bool
  | .null => true
  | .boolean b => !b
  | .integer n => n == 0
  | .number x => x.isZero
  | .text s => s.isEmpty
  | .list items => items.isEmpty
  | .object members => members.isEmpty
  | .other _ => false

end Value

/-- The members of an object. -/
abbrev Members := List (Option Text × Value)

namespace Members

/-- The last member under a key. -/
def get? (members : Members) (key : Text) : Option Value :=
  (members.reverse.find? fun m => m.1 == some key).map Prod.snd

/-- Adds a member that masks the earlier ones under its key. -/
def set (members : Members) (key : Text) (value : Value) : Members :=
  members ++ [(some key, value)]

theorem get?_set (members : Members) (key other : Text) (value : Value) :
    (members.set key value).get? other =
      if other = key then some value else members.get? other := by
  by_cases h : other = key
  · simp [get?, set, h]
  · simp [get?, set, h, Ne.symm h]

end Members

end GenScope
