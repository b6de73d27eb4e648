import GenScope.Text.Printable

/-!
# Quoted text

A quoted text stands between single quotes, or between double quotes if it holds a single quote
and no double quote. Backslashes, the quote in use and unprintable characters are escaped.
-/

namespace GenScope.Text

/-- A number in hexadecimal digits, at least `width` of them. -/
def hex (width n : Nat) : Text :=
  let digits := Nat.toDigits 16 n
  List.replicate (width - digits.length) '0' ++ digits

/-- One character between the given quotes. -/
def escapeChar (quote c : Char) : Text :=
  if c = quote ∨ c = '\\' then ['\\', c]
  else if c = '\n' then ['\\', 'n']
  else if c = '\r' then ['\\', 'r']
  else if c = '\t' then ['\\', 't']
  else if isPrintable c then [c]
  else if c.toNat < 0x100 then ['\\', 'x'] ++ hex 2 c.toNat
  else if c.toNat < 0x10000 then ['\\', 'u'] ++ hex 4 c.toNat
  else ['\\', 'U'] ++ hex 8 c.toNat

/-- The quote a text is written between. -/
def quoteFor (s : Text) : Char :=
  if s.contains '\x27' && !s.contains '"' then '"' else '\x27'

def quoted (s : Text) : Text :=
  let quote := quoteFor s
  [quote] ++ s.flatMap (escapeChar quote) ++ [quote]

end GenScope.Text
