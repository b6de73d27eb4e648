import GenScope.Text.Basic

/-!
# Options

Arguments are options and other words. A long option has two dashes and its value after an equals
sign or in the next argument; short options have one dash and one letter, stand together, and the
last of them may have its value attached. A value may look like an option. Two dashes alone end the
options.
-/

namespace GenScope

/-- One spelling of an option, with its dashes, and what it stands for. -/
structure OptionSpelling (κ : Type) where
  spelling : Text
  key : κ
  takesValue : Bool

/-- What is wrong with a command line. -/
inductive UsageError
  | noArguments
  | missingCommand
  | unknownCommand (name : Text)
  | unknownOption (spelling : Text)
  | missingValue
  | unexpectedValue (spelling : Text)
  | unexpectedArgument (argument : Text)
deriving DecidableEq, Repr

def UsageError.message : UsageError → Text
  | .noArguments => "No arguments."
  | .missingCommand => "Missing command."
  | .unknownCommand name => "No such command '" ++ name ++ "'."
  | .unknownOption spelling => "No such option: " ++ spelling
  | .missingValue => "The last option requires an argument."
  | .unexpectedValue spelling => "Option '" ++ spelling ++ "' does not take a value."
  | .unexpectedArgument argument => "Got unexpected extra argument (" ++ argument ++ ")"

namespace CommandLine

variable {κ : Type}

/-- An option that was given, with its value or an empty text. -/
abbrev Given (κ : Type) := κ × Text

/-- What one argument gives, and the option that waits for a value. -/
abbrev Reading (κ : Type) := List (Given κ) × Option κ

def find? (table : List (OptionSpelling κ)) (spelling : Text) : Option (OptionSpelling κ) :=
  table.find? (·.spelling = spelling)

/-- An argument with a dash and something behind it. -/
def looksLikeOption (arg : Text) : Bool := arg.startsWith "-" && 1 < arg.length

/-- Two dashes alone. -/
def endOfOptions : Text := "--"

/-- Reads letters that stand together. -/
def readLetters (table : List (OptionSpelling κ)) : Text → Except UsageError (Reading κ)
  | [] => .ok ([], none)
  | c :: rest =>
    match find? table ['-', c] with
    | none => .error (.unknownOption ['-', c])
    | some o =>
      if o.takesValue then
        .ok (if rest.isEmpty then ([], some o.key) else ([(o.key, rest)], none))
      else do
        let (given, waiting) ← readLetters table rest
        return ((o.key, []) :: given, waiting)

/-- Reads an argument that looks like an option. Only two dashes make a long option. -/
def readOption (table : List (OptionSpelling κ)) (arg : Text) : Except UsageError (Reading κ) :=
  let name := arg.takeWhile (· != '=')
  let value := if name.length < arg.length then some (arg.drop (name.length + 1)) else none
  if arg.startsWith "--" then
    match find? table name, value with
    | none, _ => .error (.unknownOption name)
    | some o, none => .ok (if o.takesValue then ([], some o.key) else ([(o.key, [])], none))
    | some o, some v =>
      if o.takesValue then .ok ([(o.key, v)], none) else .error (.unexpectedValue name)
  else readLetters table arg.tail

/-- Reads all arguments: the options in their order, and the other words. -/
def readAll (table : List (OptionSpelling κ)) :
    (waiting : Option κ) → List Text → Except UsageError (List (Given κ) × List Text)
  | some key, arg :: rest => do
    let (given, words) ← readAll table none rest
    return ((key, arg) :: given, words)
  | some _, [] => .error .missingValue
  | none, [] => .ok ([], [])
  | none, arg :: rest =>
    if arg = endOfOptions then .ok ([], rest)
    else if looksLikeOption arg then do
      let (now, waiting) ← readOption table arg
      let (later, words) ← readAll table waiting rest
      return (now ++ later, words)
    else do
      let (given, words) ← readAll table none rest
      return (given, arg :: words)

/-- Reads options without values up to the first other word. -/
def readLeading (table : List (OptionSpelling κ)) :
    List Text → Except UsageError (List κ × List Text)
  | [] => .ok ([], [])
  | arg :: rest =>
    if arg = endOfOptions then .ok ([], rest)
    else if looksLikeOption arg then do
      let (now, _) ← readOption table arg
      let (later, words) ← readLeading table rest
      return (now.map Prod.fst ++ later, words)
    else .ok ([], arg :: rest)

end CommandLine

end GenScope
