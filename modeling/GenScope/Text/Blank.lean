import GenScope.Text.Range

/-!
# White space

Blank characters are the white space of Unicode together with the four information separators.
The zero-width space and the byte order mark are not blank.
-/

namespace GenScope.Text

/-- Ranges of the blank characters. -/
def blankRanges : List (Nat × Nat) := [
  (9, 13), (28, 32), (133, 133), (160, 160), (5760, 5760), (8192, 8202), (8232, 8233),
  (8239, 8239), (8287, 8287), (12288, 12288)]

/-- White space. -/
def isBlank (c : Char) : Bool := inRanges blankRanges c

/-- Every character of the text is white space. -/
def isAllBlank (s : Text) : Bool := s.all isBlank

def trimStart (s : Text) : Text := s.dropWhile isBlank

def trimEnd (s : Text) : Text := (s.reverse.dropWhile isBlank).reverse

/-- The text without white space at both ends. -/
def trim (s : Text) : Text := trimEnd (trimStart s)

end GenScope.Text
