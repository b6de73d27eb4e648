import GenScope.Cpp.Source
import GenScope.Log

/-!
# Choosing among candidates

When several files match a query, each is labelled with the name of what it holds and the user
chooses one. A file that cannot be read or recognised keeps its place under an error label.
-/

namespace GenScope

/-- Answers a list of labels with an index or with nothing, and changes its own state. -/
abbrev Chooser (σ : Type) := σ → List Text → Logged (Option Nat × σ)

/-- Answers prepared in advance, and the menus that were shown. -/
structure Script where
  answers : List (Option Nat)
  shown : List (List Text)
deriving DecidableEq, Repr

/-- Gives the next prepared answer; when they are used up, every menu is cancelled. -/
def Script.chooser : Chooser Script := fun s labels =>
  pure (s.answers.head?.join, ⟨s.answers.tail, s.shown ++ [labels]⟩)

namespace Label

def source : Text := "tools.disambiguator"

def errorLabel : Text := "<error>"

/-- The name of what a file holds. -/
def readName (t : FileTree) (kind : ArtifactKind) (p : Path) : Except Cpp.ExtractionError Text :=
  match kind with
  | .function => Cpp.readFunctionName t p
  | .classType => Cpp.readClassName t p

/-- The label of a candidate. -/
def ofFile (t : FileTree) (kind : ArtifactKind) (p : Path) : Logged Text :=
  match readName t kind p with
  | .ok name => pure (if name.isEmpty then errorLabel else name)
  | .error e => do
    Logged.write .warning source ("Cannot label candidate: " ++ e.message)
    return errorLabel

/-- The labels of candidates, in their order. -/
def ofFiles (t : FileTree) (kind : ArtifactKind) : List Path → Logged (List Text)
  | [] => pure []
  | p :: ps => do
    let label ← ofFile t kind p
    return label :: (← ofFiles t kind ps)

/-- Picks one candidate. The user is asked only if there are several. -/
def resolve {σ : Type} (t : FileTree) (kind : ArtifactKind) (chooser : Chooser σ) (s : σ)
    (candidates : List Path) : Logged (Option Path × σ) :=
  match candidates with
  | [] => pure (none, s)
  | [p] => pure (some p, s)
  | ps => do
    let labels ← ofFiles t kind ps
    match ← chooser s labels with
    | (some n, s) => return (ps[n]?, s)
    | (none, s) =>
      Logged.write .debug source
        ("Selection among " ++ Text.ofNat ps.length ++ " candidates cancelled")
      return (none, s)

end Label

end GenScope
