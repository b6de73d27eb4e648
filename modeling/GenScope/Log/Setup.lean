import GenScope.Log

/-!
# Setting up the log

Records go to one handler, whose threshold is that of the log. What is set up depends on the debug
flag alone, so the last time counts. Debugging holds nothing back (`emitted_debug`).
-/

namespace GenScope

/-- Where records are shown. -/
structure LogHandler where
  threshold : Level
  /-- The place in the program is shown with a record. -/
  showsPath : Bool
deriving DecidableEq, Repr

structure LogSetup where
  threshold : Level
  handlers : List LogHandler
  /-- Records are handed on to the log that contains this one. -/
  propagates : Bool
deriving DecidableEq, Repr

namespace LogSetup

/-- The name of the log. -/
def name : Text := "kphp_inspector"

/-- The log that records everything and shows nothing. -/
def silent : LogSetup := ⟨.debug, [], false⟩

/-- The least level that is recorded. -/
def thresholdFor (debug : Bool) : Level := if debug then .debug else .warning

/-- The log as it is set up for users, or to find errors. -/
def configured (debug : Bool) : LogSetup :=
  ⟨thresholdFor debug, [⟨thresholdFor debug, debug⟩], false⟩

/-- The records that pass the threshold. -/
def emitted (s : LogSetup) (records : List LogRecord) : List LogRecord :=
  records.filter (·.level.reaches s.threshold)

theorem emitted_silent (records : List LogRecord) : silent.emitted records = records := by
  refine List.filter_eq_self.2 fun r _ => ?_
  simp only [Level.reaches, silent]
  cases r.level <;> rfl

theorem emitted_debug (records : List LogRecord) :
    (configured true).emitted records = records := emitted_silent records

end LogSetup

/-- The records of a computation that pass the threshold of a log. -/
def Logged.under {α : Type} (x : Logged α) (s : LogSetup) : Logged α :=
  ⟨x.value, s.emitted x.records⟩

end GenScope
