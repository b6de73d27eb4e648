import GenScope.Console.Styled

/-!
# Markup

Some lines are printed with markup: a tag in square brackets that starts with a small letter, a
hash, a slash or an at sign is taken out. A backslash before a tag keeps the tag, and two stand for
one backslash.
-/

namespace GenScope.Markup

def startsTag (c : Char) : Bool := ('a' ≤ c && c ≤ 'z') || c == '#' || c == '/' || c == '@'

/-- The length of the tag at the start of a text. -/
def tagLength? : Text → Option Nat
  | '[' :: c :: s =>
    let body := s.takeWhile fun d => d != ']' && d != '['
    if startsTag c && s[body.length]? == some ']' then some (body.length + 3) else none
  | _ => none

/-- Takes tags out after passing over the next `skip` characters. -/
def removeTagsFrom : Nat → Text → Text
  | _, [] => []
  | skip + 1, _ :: s => removeTagsFrom skip s
  | 0, c :: s =>
    let slashes := ((c :: s).takeWhile (· == '\\')).length
    let tag := (c :: s).drop slashes
    match tagLength? tag with
    | some n =>
      List.replicate (slashes / 2) '\\' ++ (if slashes % 2 = 1 then tag.take n else []) ++
        removeTagsFrom (slashes + n - 1) s
    | none =>
      if c = '\\' ∧ s.head? = some '[' then '[' :: removeTagsFrom 1 s
      else c :: removeTagsFrom 0 s

/-- The text that is printed for a text with markup. -/
def removeTags (s : Text) : Text := removeTagsFrom 0 s

end GenScope.Markup
