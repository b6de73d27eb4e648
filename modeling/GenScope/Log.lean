import GenScope.Text.Basic

/-!
# Log records

A computation that reports what it does gives its records with its result, in order.
-/

namespace GenScope

/-- The levels of log records, least first. -/
inductive Level
  | debug
  | info
  | warning
  | error
  | critical
deriving DecidableEq, Repr

namespace Level

def rank : Level → Nat
  | .debug => 10
  | .info => 20
  | .warning => 30
  | .error => 40
  | .critical => 50

/-- A record at this level passes a threshold. -/
def reaches (level threshold : Level) : Bool := threshold.rank ≤ level.rank

end Level

/-- A record: its level, the component that writes it, and the message. -/
structure LogRecord where
  level : Level
  source : Text
  message : Text
deriving DecidableEq, Repr

/-- A result with the records that were written on the way. -/
structure Logged (α : Type) where
  value : α
  records : List LogRecord

namespace Logged

variable {α β : Type}

def pure (a : α) : Logged α := ⟨a, []⟩

def bind (x : Logged α) (f : α → Logged β) : Logged β :=
  ⟨(f x.value).value, x.records ++ (f x.value).records⟩

instance : Monad Logged where
  pure := Logged.pure
  bind := Logged.bind

/-- Writes one record. -/
def write (level : Level) (source message : Text) : Logged Unit := ⟨(), [⟨level, source, message⟩]⟩

@[simp] theorem value_pure (a : α) : (pure a : Logged α).value = a := rfl

@[simp] theorem value_bind (x : Logged α) (f : α → Logged β) :
    (x.bind f).value = (f x.value).value := rfl

@[simp] theorem value_bind_eq (x : Logged α) (f : α → Logged β) :
    (x >>= f).value = (f x.value).value := rfl

end Logged

end GenScope
