import GenScope.Text.Blank
import GenScope.Text.Lowercase

/-!
# Queries

A query is what the user typed to find a function or a class. One that starts with a backslash is
fully qualified and stands for one file name; any other is a list of words.
-/

namespace GenScope

/-- What stands between the words of a query. -/
def isQuerySeparator (c : Char) : Bool :=
  c == '\\' || c == ',' || c == '+' || c == ':' || c == '(' || c == ')' || Text.isBlank c

/-- The lower-cased words of a query, in the order they were typed. -/
def queryTokens (raw : Text) : List Text :=
  Text.runs isQuerySeparator (Text.trim (Text.lower raw))

/-- A qualified name without a leading backslash and without empty parentheses behind it. -/
def bareName (name : Text) : Text :=
  let name := Text.trim name
  let name := (Text.after? "\\" name).getD name
  if Text.endsWith name "()" then name.take (name.length - 2) else name

/-- The stem of the file that the generator writes for a qualified name. -/
def generatorPath (name : Text) : Text :=
  Text.substitute ':' '@' (Text.substitute '\\' '@' (Text.replace "::" "@@" (bareName name)))

/-- A query, trimmed. -/
structure SearchQuery where
  raw : Text
deriving DecidableEq, Repr

namespace SearchQuery

def ofText (s : Text) : SearchQuery := ⟨Text.trim s⟩

def isFullyQualified (q : SearchQuery) : Bool := q.raw.startsWith "\\"

def tokens (q : SearchQuery) : List Text := queryTokens q.raw

/-- The longest of some words, and the first one of several. -/
def longest : List Text → Option Text
  | [] => none
  | w :: ws => some (ws.foldl (fun best w => if best.length < w.length then w else best) w)

def longestToken (q : SearchQuery) : Option Text := longest q.tokens

/-- The file stem that a fully qualified query stands for. -/
def path? (q : SearchQuery) : Option Text :=
  if q.isFullyQualified then some (generatorPath q.raw) else none

def isEmpty (q : SearchQuery) : Bool := q.tokens.isEmpty

end SearchQuery

end GenScope
