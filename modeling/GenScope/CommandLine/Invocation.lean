import GenScope.CommandLine.Options

/-!
# Invocations

What a command line asks for: one of two commands with its options, the version, or help. Of an
option that is given several times the last value counts.
-/

namespace GenScope

open CommandLine

/-! ### Showing functions and classes -/

/-- The options of the command that shows functions and classes. -/
structure InspectOptions where
  root : Option Text
  functionInfo : Option Text
  functionSource : Option Text
  classInfo : Option Text
  configFile : Option Text
  debug : Option Bool
deriving DecidableEq, Repr

namespace InspectOptions

inductive Key
  | root
  | functionInfo
  | functionSource
  | classInfo
  | configFile
  | debug
  | noDebug
  | help
deriving DecidableEq, Repr

def spellings : List (OptionSpelling Key) := [
  ⟨"--root", .root, true⟩,
  ⟨"--f", .functionInfo, true⟩, ⟨"-f", .functionInfo, true⟩,
  ⟨"--src", .functionSource, true⟩,
  ⟨"--cl", .classInfo, true⟩, ⟨"--class", .classInfo, true⟩,
  ⟨"--config", .configFile, true⟩,
  ⟨"--debug", .debug, false⟩, ⟨"--no-debug", .noDebug, false⟩, ⟨"--help", .help, false⟩]

/-- No option is given. -/
def absent : InspectOptions := ⟨none, none, none, none, none, none⟩

def set (o : InspectOptions) : Given Key → InspectOptions
  | (.root, v) => { o with root := v }
  | (.functionInfo, v) => { o with functionInfo := v }
  | (.functionSource, v) => { o with functionSource := v }
  | (.classInfo, v) => { o with classInfo := v }
  | (.configFile, v) => { o with configFile := v }
  | (.debug, _) => { o with debug := true }
  | (.noDebug, _) => { o with debug := false }
  | (.help, _) => o

end InspectOptions

/-! ### Comparing trees -/

/-- The options of the command that compares two trees. -/
structure DiffOptions where
  master : Option Text
  compared : Option Text
  diff : Option Text
  skipComments : Bool
  debug : Bool
deriving DecidableEq, Repr

namespace DiffOptions

inductive Key
  | master
  | compared
  | diff
  | skipComments
  | debug
  | help
deriving DecidableEq, Repr

def spellings : List (OptionSpelling Key) := [
  ⟨"--master", .master, true⟩, ⟨"--cmp", .compared, true⟩, ⟨"--diff", .diff, true⟩,
  ⟨"--skip-comments", .skipComments, false⟩, ⟨"--debug", .debug, false⟩,
  ⟨"--help", .help, false⟩]

/-- No option is given. -/
def absent : DiffOptions := ⟨none, none, none, false, false⟩

def set (o : DiffOptions) : Given Key → DiffOptions
  | (.master, v) => { o with master := v }
  | (.compared, v) => { o with compared := v }
  | (.diff, v) => { o with diff := v }
  | (.skipComments, _) => { o with skipComments := true }
  | (.debug, _) => { o with debug := true }
  | (.help, _) => o

end DiffOptions

/-! ### The whole command line -/

inductive Invocation
  | version
  | help
  | inspect (o : InspectOptions)
  | diff (o : DiffOptions)
deriving DecidableEq, Repr

namespace Invocation

/-- What can be asked for before a command. -/
inductive LeadingKey
  | version
  | help
deriving DecidableEq, Repr

def leadingSpellings : List (OptionSpelling LeadingKey) := [
  ⟨"--version", .version, false⟩, ⟨"-v", .version, false⟩, ⟨"--help", .help, false⟩]

/-- What the options of a command ask for. Help is given even if there are words that do not belong
there. -/
def ofGiven {κ ο : Type} [DecidableEq κ] (help : κ) (set : ο → Given κ → ο) (absent : ο)
    (make : ο → Invocation) : List (Given κ) × List Text → Except UsageError Invocation
  | (given, words) =>
    if given.any (·.1 = help) then .ok .help
    else match words with
      | [] => .ok (make (given.foldl set absent))
      | word :: _ => .error (.unexpectedArgument word)

/-- Reads a command line without the name of the program. -/
def ofArguments (args : List Text) : Except UsageError Invocation :=
  if args.isEmpty then .error .noArguments
  else do
    match ← readLeading leadingSpellings args with
    | (.version :: _, _) => return .version
    | (.help :: _, _) => return .help
    | ([], []) => .error .missingCommand
    | ([], name :: args) =>
      if name = "inspect".toList then
        ofGiven .help InspectOptions.set .absent .inspect
          (← readAll InspectOptions.spellings none args)
      else if name = "diff".toList then
        ofGiven .help DiffOptions.set .absent .diff (← readAll DiffOptions.spellings none args)
      else .error (.unknownCommand name)

end Invocation

end GenScope
