import GenScope.Text.Basic

/-!
# Paths

A path is an anchor and the names below it. Writing a path drops what does not matter: repeated
separators, single dots and a separator at the end. Two dots stay, because what they mean depends
on the links of the file tree.

Going below a directory and asking for the relative path are inverse to each other
(`relativeTo?_below`, `below_of_relativeTo?`).
-/

namespace GenScope

/-- Where a path starts. -/
inductive Anchor
  /-- At the working directory. -/
  | relative
  /-- At the top. -/
  | top
  /-- At the top, written with two separators, which are kept. -/
  | doubled
deriving DecidableEq, Repr

structure Path where
  anchor : Anchor
  names : List Text
deriving DecidableEq, Repr

namespace Path

/-- The names between separators; empty ones and single dots are dropped. -/
def namesOf (s : Text) : List Text :=
  (Text.split (· == '/') s).filter fun name => name != [] && name != ['.']

def anchorOf : Text → Anchor
  | '/' :: '/' :: '/' :: _ => .top
  | '/' :: '/' :: _ => .doubled
  | '/' :: _ => .top
  | _ => .relative

def ofText (s : Text) : Path := ⟨anchorOf s, namesOf s⟩

def Anchor.written : Anchor → Text
  | .relative => ""
  | .top => "/"
  | .doubled => "//"

def toText (p : Path) : Text :=
  match p.anchor, p.names with
  | .relative, [] => "."
  | a, names => Anchor.written a ++ Text.join "/" names

/-- The last name, or nothing if there is none. -/
def name (p : Path) : Text := p.names.getLastD []

/-- The path that starts at the first one. A path that starts at the top starts nowhere else. -/
def join (p q : Path) : Path :=
  match q.anchor with
  | .relative => ⟨p.anchor, p.names ++ q.names⟩
  | _ => q

/-- The path of an entry below a directory. -/
def below (p : Path) (names : List Text) : Path := ⟨p.anchor, p.names ++ names⟩

/-- The path of a name in a directory. -/
def child (p : Path) (name : Text) : Path := p.below [name]

/-- The names that lead from one path to another one below it. -/
def relativeTo? (p root : Path) : Option (List Text) :=
  if p.anchor = root.anchor ∧ root.names.isPrefixOf p.names then
    some (p.names.drop root.names.length)
  else none

theorem relativeTo?_below (root : Path) (names : List Text) :
    (root.below names).relativeTo? root = some names := by
  simp [below, relativeTo?]

theorem below_of_relativeTo? {p root : Path} {names : List Text}
    (h : p.relativeTo? root = some names) : p = root.below names := by
  unfold relativeTo? at h
  split at h
  · rename_i hp
    obtain ⟨ha, hn⟩ := hp
    obtain ⟨t, ht⟩ := List.isPrefixOf_iff_prefix.1 hn
    have hd : p.names.drop root.names.length = t := by rw [← ht, List.drop_left]
    cases h
    cases p
    simp_all [below]
  · cases h

end Path

end GenScope
