import GenScope.Text.Basic

/-!
# UTF-8

Files hold bytes. Generated files are read leniently: each longest start of an encoding that does
not go on as one becomes a replacement character. Settings files are read strictly, and the first
flaw is reported with its place. Both readings follow the same decoder, `decodeNext`.
-/

namespace GenScope

/-- The content of a file. -/
abbrev Bytes := List UInt8

namespace Utf8

/-- Why bytes are not the encoding of a character. -/
inductive Flaw
  /-- No encoding starts with the byte. -/
  | badStart
  /-- The encoding is broken off by another byte. -/
  | badContinuation
  /-- The encoding is broken off by the end of the data. -/
  | truncated
deriving DecidableEq, Repr

/-- What the first byte of an encoding says about the bytes that follow. -/
structure Lead where
  /-- The bits of the character that the first byte holds. -/
  bits : Nat
  /-- The number of bytes that follow. -/
  count : Nat
  /-- The least byte that may follow at once. -/
  low : Nat
  /-- The greatest byte that may follow at once. -/
  high : Nat

/-- Overlong forms, surrogates and code points above 10FFFF are excluded by the byte after the
first one. -/
def Lead.ofByte? (b : UInt8) : Option Lead :=
  let n := b.toNat
  if n < 0x80 then some ⟨n, 0, 0x80, 0xBF⟩
  else if n < 0xC2 then none
  else if n < 0xE0 then some ⟨n - 0xC0, 1, 0x80, 0xBF⟩
  else if n < 0xF0 then
    some ⟨n - 0xE0, 2, if n = 0xE0 then 0xA0 else 0x80, if n = 0xED then 0x9F else 0xBF⟩
  else if n < 0xF5 then
    some ⟨n - 0xF0, 3, if n = 0xF0 then 0x90 else 0x80, if n = 0xF4 then 0x8F else 0xBF⟩
  else none

/-- Reads the bytes that continue an encoding: the character or the flaw, and how many bytes
belong to it. -/
def decodeTail (bits : Nat) : (count low high : Nat) → Bytes → Except Flaw Char × Nat
  | 0, _, _, _ => (.ok (Char.ofNat bits), 0)
  | _ + 1, _, _, [] => (.error .truncated, 0)
  | count + 1, low, high, b :: rest =>
    if low ≤ b.toNat ∧ b.toNat ≤ high then
      let (r, n) := decodeTail (bits * 64 + (b.toNat - 0x80)) count 0x80 0xBF rest
      (r, n + 1)
    else (.error .badContinuation, 0)

/-- Reads one character that starts with a byte: the character or the flaw, and how many of the
bytes that follow belong to it. -/
def decodeNext (b : UInt8) (rest : Bytes) : Except Flaw Char × Nat :=
  match Lead.ofByte? b with
  | none => (.error .badStart, 0)
  | some lead => decodeTail lead.bits lead.count lead.low lead.high rest

/-! ### Lenient reading -/

/-- Decodes after passing over the next `skip` bytes. -/
def decodeFrom : Nat → Bytes → Text
  | _, [] => []
  | skip + 1, _ :: rest => decodeFrom skip rest
  | 0, b :: rest =>
    match decodeNext b rest with
    | (.ok c, n) => c :: decodeFrom n rest
    | (.error _, n) => '\uFFFD' :: decodeFrom n rest

/-- Every flaw is read as one replacement character. -/
def decodeLossy (bytes : Bytes) : Text := decodeFrom 0 bytes

/-! ### Strict reading -/

/-- A flaw with its place. -/
structure Misread where
  flaw : Flaw
  /-- The position of the first byte that cannot be read. -/
  position : Nat
  /-- The bytes that cannot be read. -/
  bytes : Bytes
deriving DecidableEq, Repr

/-- The first flaw after passing over `skip` bytes. -/
def misreadFrom : (position skip : Nat) → Bytes → Option Misread
  | _, _, [] => none
  | position, skip + 1, _ :: rest => misreadFrom (position + 1) skip rest
  | position, 0, b :: rest =>
    match decodeNext b rest with
    | (.ok _, n) => misreadFrom (position + 1) n rest
    | (.error flaw, n) => some ⟨flaw, position, b :: rest.take n⟩

/-- The text, if every byte belongs to a character. -/
def decode (bytes : Bytes) : Except Misread Text :=
  match misreadFrom 0 0 bytes with
  | some flaw => .error flaw
  | none => .ok (decodeLossy bytes)

def hexDigit (n : Nat) : Char := Nat.digitChar n

/-- A byte in two hexadecimal digits. -/
def hexByte (b : UInt8) : Text := [hexDigit (b.toNat / 16), hexDigit (b.toNat % 16)]

def Flaw.describe : Flaw → Text
  | .badStart => "invalid start byte"
  | .badContinuation => "invalid continuation byte"
  | .truncated => "unexpected end of data"

/-- A single byte is shown, several are given by their places. -/
def Misread.message (m : Misread) : Text :=
  let place : Text := match m.bytes with
    | [b] => "byte 0x" ++ hexByte b ++ " in position " ++ Text.ofNat m.position
    | bs => "bytes in position " ++ Text.ofNat m.position ++ "-" ++
        Text.ofNat (m.position + bs.length - 1)
  "'utf-8' codec can't decode " ++ place ++ ": " ++ m.flaw.describe

/-! ### Writing -/

def encode (s : Text) : Bytes := s.flatMap String.utf8EncodeChar

/-! ### Line ends -/

/-- A carriage return, alone or before a line feed, is read as a line feed. -/
def unifyNewlines : Text → Text
  | [] => []
  | '\r' :: '\n' :: s => '\n' :: unifyNewlines s
  | '\r' :: s => '\n' :: unifyNewlines s
  | c :: s => c :: unifyNewlines s

/-- The text of a generated file. -/
def readLossy (bytes : Bytes) : Text := unifyNewlines (decodeLossy bytes)

/-- The text of a settings file. -/
def readStrict (bytes : Bytes) : Except Misread Text := (decode bytes).map unifyNewlines

end Utf8

end GenScope
