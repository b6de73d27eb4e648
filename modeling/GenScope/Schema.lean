import GenScope.Text.Blank
import GenScope.Value

/-!
# Checking values

A schema reads the members of an object into fields of fixed types. Everything that is wrong is
reported together, in the order of the fields; `Checked.seq_issues` says that no issue is lost. What
passes for a text, a boolean or a number is up to the readers of the fields (`FieldReaders`). The lax
ones are lenient where a spelling is plain, such as `yes` for a boolean.
-/

namespace GenScope

/-- What can be wrong with a value. -/
inductive Problem
  | missing
  | notText
  | tooShort
  | notBoolean
  | unclearBoolean
  | notInteger
  | unclearInteger
  | fractional
  | notFinite
  | notPositive
  | notList
  | notObject (model : Text)
  | rejected (reason : Text)
  | frozen
deriving DecidableEq, Repr

def Problem.message : Problem → Text
  | .missing => "Field required"
  | .notText => "Input should be a valid string"
  | .tooShort => "String should have at least 1 character"
  | .notBoolean => "Input should be a valid boolean"
  | .unclearBoolean => "Input should be a valid boolean, unable to interpret input"
  | .notInteger => "Input should be a valid integer"
  | .unclearInteger => "Input should be a valid integer, unable to parse string as an integer"
  | .fractional => "Input should be a valid integer, got a number with a fractional part"
  | .notFinite => "Input should be a finite number"
  | .notPositive => "Input should be greater than 0"
  | .notList => "Input should be a valid list"
  | .notObject model => "Input should be a valid dictionary or instance of " ++ model
  | .rejected reason => "Value error, " ++ reason
  | .frozen => "Instance is frozen"

/-- A problem and the way to the value that has it. -/
structure Issue where
  location : List Text
  problem : Problem
deriving DecidableEq, Repr

def Issue.message (i : Issue) : Text :=
  (if i.location.isEmpty then ("config" : Text) else Text.join "." i.location) ++ ": " ++
    i.problem.message

/-- The message for all issues together. -/
def issuesMessage (issues : List Issue) : Text := Text.join "; " (issues.map Issue.message)

/-- A value that was read, or all that is wrong with it. -/
inductive Checked (α : Type)
  | valid (a : α)
  | invalid (issues : List Issue)
deriving DecidableEq, Repr

namespace Checked

variable {α β : Type}

def issues : Checked α → List Issue
  | .valid _ => []
  | .invalid is => is

/-- A single problem with the whole value. -/
def fail (p : Problem) : Checked α := .invalid [⟨[], p⟩]

def map (f : α → β) : Checked α → Checked β
  | .valid a => .valid (f a)
  | .invalid is => .invalid is

/-- Applies what was read to what is read next, and keeps the issues of both. -/
def seq (f : Checked (α → β)) (x : Checked α) : Checked β :=
  match f, x with
  | .valid f, .valid a => .valid (f a)
  | .valid _, .invalid is => .invalid is
  | .invalid is, x => .invalid (is ++ x.issues)

/-- Goes on with a value that was read. -/
def andThen (x : Checked α) (f : α → Checked β) : Checked β :=
  match x with
  | .valid a => f a
  | .invalid is => .invalid is

/-- The same with every issue found at a place inside a larger value. -/
def inside (step : Text) : Checked α → Checked α
  | .valid a => .valid a
  | .invalid is => .invalid (is.map fun i => { i with location := step :: i.location })

theorem seq_issues (f : Checked (α → β)) (x : Checked α) :
    (f.seq x).issues = f.issues ++ x.issues := by
  cases f <;> cases x <;> simp [seq, issues]

end Checked

/-! ### Readers of one value -/

/-- Reads a value of one type. -/
abbrev Reader (α : Type) := Value → Checked α

namespace Reader

variable {α : Type}

def text : Reader Text
  | .text s => .valid s
  | _ => .fail .notText

/-- A text that is not empty. -/
def nonEmptyText : Reader Text := fun v =>
  (text v).andThen fun s => if s.isEmpty then .fail .tooShort else .valid s

/-- The spellings of a boolean, in small letters. -/
def trueWords : List Text := ["1", "on", "t", "true", "y", "yes"]

def falseWords : List Text := ["0", "off", "f", "false", "n", "no"]

/-- The whole number fits a machine word. -/
def isSmall (n : Int) : Bool := -9223372036854775808 ≤ n && n < 9223372036854775808

def boolean : Reader Bool
  | .boolean b => .valid b
  | .integer n =>
    if n = 0 then .valid false else if n = 1 then .valid true
    else .fail (if isSmall n then .unclearBoolean else .notBoolean)
  | .number x =>
    match x.toInt? with
    | some n =>
      if n = 0 then .valid false else if n = 1 then .valid true
      else .fail (if isSmall n && isSmall (n - 1) then .unclearBoolean else .notBoolean)
    | none => .fail .notBoolean
  | .text s =>
    let s := s.map Char.toLower
    if trueWords.contains s then .valid true
    else if falseWords.contains s then .valid false
    else .fail .unclearBoolean
  | _ => .fail .notBoolean

/-- A whole number without sign: digits, single underscores between them, and a fraction of
zeros. -/
def wholeNumber? (s : Text) : Option Nat :=
  let whole := s.takeWhile (· != '.')
  let fraction := s.drop (whole.length + 1)
  let groups := Text.split (· == '_') whole
  if fraction.all (· == '0') && groups.all (fun g => !g.isEmpty && g.all Char.isDigit) then
    some (Text.decimalValue groups.flatten)
  else none

/-- A number without the zeros in front, among which there may be any number of underscores. The
last of them stays if no digit follows. -/
def dropZeros : Text → Text
  | '0' :: s =>
    let zeros := s.takeWhile fun c => c == '0' || c == '_'
    let rest := s.drop zeros.length
    if rest.head?.any Char.isDigit then rest else zeros.getLastD '0' :: rest
  | s => s

/-- White space around a number; the separators of the control characters do not count. -/
def isMargin (c : Char) : Bool := Text.isBlank c && !('\x1c' ≤ c && c ≤ '\x1f')

def integerText? (s : Text) : Option Int :=
  let s := ((s.dropWhile isMargin).reverse.dropWhile isMargin).reverse
  match s with
  | '-' :: s => (wholeNumber? s).map fun n => -(n : Int)
  | '+' :: s => (wholeNumber? (dropZeros s)).map fun n => (n : Int)
  | s => (wholeNumber? (dropZeros s)).map fun n => (n : Int)

def integer : Reader Int
  | .integer n => .valid n
  | .boolean b => .valid (if b then 1 else 0)
  | .number x =>
    match x, x.toInt? with
    | _, some n => .valid n
    | .finite _ _, none => .fail .fractional
    | _, none => .fail .notFinite
  | .text s =>
    match integerText? s with
    | some n => .valid n
    | none => .fail .unclearInteger
  | _ => .fail .notInteger

/-- A whole number above zero. -/
def positive : Reader Nat := fun v =>
  (integer v).andThen fun n => if 0 < n then .valid n.toNat else .fail .notPositive

/-- Reads items one after another; an issue is located by the item's number. -/
def itemsFrom (item : Reader α) : Nat → List Value → Checked (List α)
  | _, [] => .valid []
  | n, v :: vs =>
    (((item v).inside (Text.ofNat n)).map fun a as => a :: as).seq (itemsFrom item (n + 1) vs)

def list (item : Reader α) : Reader (List α)
  | .list vs => itemsFrom item 0 vs
  | _ => .fail .notList

/-- The members of an object that stands for a model. -/
def object (model : Text) : Reader Members
  | .object members => .valid members
  | _ => .fail (.notObject model)

end Reader

/-- How the fields of settings are read, with what can be relied on: a value of a field's own type is
taken as it is, and what is taken meets the field's bound. -/
structure FieldReaders where
  text : Reader Text
  nonEmptyText : Reader Text
  boolean : Reader Bool
  positive : Reader Nat
  text_text : ∀ s, text (.text s) = .valid s
  nonEmptyText_text : ∀ s, s ≠ [] → nonEmptyText (.text s) = .valid s
  ne_nil_of_nonEmptyText : ∀ {v s}, nonEmptyText v = .valid s → s ≠ []
  boolean_boolean : ∀ b, boolean (.boolean b) = .valid b
  pos_of_positive : ∀ {v n}, positive v = .valid n → 0 < n

namespace FieldReaders

def lax : FieldReaders where
  text := Reader.text
  nonEmptyText := Reader.nonEmptyText
  boolean := Reader.boolean
  positive := Reader.positive
  text_text _ := rfl
  nonEmptyText_text s hs := by simp [Reader.nonEmptyText, Reader.text, Checked.andThen, hs]
  ne_nil_of_nonEmptyText {v s} h := by
    unfold Reader.nonEmptyText at h
    cases hv : Reader.text v with
    | invalid issues => simp [hv, Checked.andThen] at h
    | valid s' =>
      by_cases hs : s' = []
      · simp [hv, hs, Checked.andThen, Checked.fail] at h
      · obtain rfl : s' = s := by simpa [hv, hs, Checked.andThen] using h
        exact hs
  boolean_boolean _ := rfl
  pos_of_positive {v n} h := by
    unfold Reader.positive at h
    cases hv : Reader.integer v with
    | invalid issues => simp [hv, Checked.andThen] at h
    | valid m =>
      by_cases hm : 0 < m
      · obtain rfl : m.toNat = n := by simpa [hv, hm, Checked.andThen] using h
        omega
      · simp [hv, hm, Checked.andThen, Checked.fail] at h

end FieldReaders

namespace Members

variable {α : Type}

/-- Reads a field that must be there. -/
def required (members : Members) (key : Text) (read : Reader α) : Checked α :=
  match members.get? key with
  | some v => (read v).inside key
  | none => .invalid [⟨[key], .missing⟩]

/-- Reads a field, or takes its default. -/
def optional (members : Members) (key : Text) (default : α) (read : Reader α) : Checked α :=
  match members.get? key with
  | some v => (read v).inside key
  | none => .valid default

end Members

end GenScope
