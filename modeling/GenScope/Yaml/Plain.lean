import GenScope.Text.Quoted
import GenScope.Value

/-!
# Plain scalars with a type

A plain scalar without a tag is a boolean, a number, a date or nothing if it is written like one,
and a text otherwise. Digits may be grouped by underscores, numbers may be binary, octal,
hexadecimal or in groups of sixty, and a date may have a time behind it.
-/

namespace GenScope.Yaml

/-- Why a scalar of a known type has no value. -/
inductive BadScalar
  | notInteger (base : Nat) (digits : Text)
  | notFloat (text : Text)
  | outOfRange (what : Text)
deriving DecidableEq, Repr

def BadScalar.message : BadScalar → Text
  | .notInteger base digits =>
    "invalid literal for int() with base " ++ Text.ofNat base ++ ": " ++ Text.quoted digits
  | .notFloat text => "could not convert string to float: " ++ Text.quoted text
  | .outOfRange what => what

/-- The types a scalar can have. -/
inductive ScalarType
  | boolean
  | float
  | integer
  | merge
  | null
  | timestamp
  | value
  | text
deriving DecidableEq, Repr

/-! ### Shapes -/

def isDigitOrBar (c : Char) : Bool := c.isDigit || c == '_'

def isOctalOrBar (c : Char) : Bool := ('0' ≤ c && c ≤ '7') || c == '_'

def isHexDigit (c : Char) : Bool := c.isDigit || ('a' ≤ c && c ≤ 'f') || ('A' ≤ c && c ≤ 'F')

/-- The text without one sign in front. -/
def unsigned : Text → Text
  | '+' :: s => s
  | '-' :: s => s
  | s => s

def isNonEmptyAll (p : Char → Bool) (s : Text) : Bool := !s.isEmpty && s.all p

/-- A number below sixty, in one digit or two. -/
def isSixtieth : Text → Bool
  | [a] => a.isDigit
  | [a, b] => '0' ≤ a && a ≤ '5' && b.isDigit
  | _ => false

/-- Digits that start with a digit. -/
def isDigitRun : Text → Bool
  | c :: s => c.isDigit && s.all isDigitOrBar
  | [] => false

/-- A whole number in groups of sixty, of which there are two or more. -/
def isSexagesimal (firstDigit : Char → Bool) (s : Text) : Bool :=
  match Text.split (· == ':') s with
  | first :: second :: more =>
    first.head?.any firstDigit && isDigitRun first && (second :: more).all isSixtieth
  | _ => false

def isInteger (s : Text) : Bool :=
  match unsigned s with
  | '0' :: 'b' :: r => isNonEmptyAll (fun c => c == '0' || c == '1' || c == '_') r
  | '0' :: 'x' :: r => isNonEmptyAll (fun c => isHexDigit c || c == '_') r
  | ['0'] => true
  | '0' :: r => r.all isOctalOrBar
  | r => isDigitRun r || isSexagesimal (fun c => c.isDigit && c != '0') r

/-- Nothing, or a mark, a sign and digits. -/
def isExponent : Text → Bool
  | [] => true
  | e :: sign :: r =>
    (e == 'e' || e == 'E') && (sign == '+' || sign == '-') && isNonEmptyAll Char.isDigit r
  | _ => false

/-- What follows the point of a decimal fraction. -/
def isFraction (s : Text) : Bool := isExponent (s.dropWhile isDigitOrBar)

def isFloat (s : Text) : Bool :=
  let r := unsigned s
  let whole := r.takeWhile (· != '.')
  let fraction := r.drop (whole.length + 1)
  let hasPoint := r.contains '.'
  hasPoint &&
    ((isDigitRun whole && isFraction fraction) ||
      (s.head? == some '.' && fraction.head?.any Char.isDigit && isFraction fraction) ||
      (isSexagesimal Char.isDigit whole && fraction.all isDigitOrBar) ||
      (whole.isEmpty && [("inf" : Text), "Inf", "INF"].contains fraction) ||
      (s.head? == some '.' && [("nan" : Text), "NaN", "NAN"].contains fraction))

def booleanWords : List (Text × Bool) := [
  ("yes", true), ("Yes", true), ("YES", true), ("no", false), ("No", false), ("NO", false),
  ("true", true), ("True", true), ("TRUE", true), ("false", false), ("False", false),
  ("FALSE", false), ("on", true), ("On", true), ("ON", true), ("off", false), ("Off", false),
  ("OFF", false)]

def nullWords : List Text := ["", "~", "null", "Null", "NULL"]

/-! ### Dates -/

/-- The parts of a date, and of a time with its distance from the prime meridian in minutes. -/
structure Timestamp where
  year : Nat
  month : Nat
  day : Nat
  time : Option (Nat × Nat × Nat)
  offset : Option Int
deriving DecidableEq, Repr

/-- Between `least` and `most` digits, as many as there are: their value and what follows. -/
def digitsAhead (least most : Nat) (s : Text) : Option (Nat × Text) :=
  let digits := (s.take most).takeWhile Char.isDigit
  if digits.length < least then none
  else some (Text.decimalValue digits, s.drop digits.length)

def expect (c : Char) : Text → Option Text
  | d :: s => if d = c then some s else none
  | [] => none

/-- The distance of a time zone: none, zero, or hours and minutes. -/
def zoneAhead (s : Text) : Option (Option Int) :=
  match s.dropWhile fun c => c == ' ' || c == '\t' with
  | [] => if s.isEmpty then some none else none
  | ['Z'] => some (some 0)
  | sign :: r =>
    if sign == '+' || sign == '-' then do
      let (hours, r) ← digitsAhead 1 2 r
      let (minutes, r) ← match r with
        | ':' :: r => digitsAhead 2 2 r
        | r => some (0, r)
      if !r.isEmpty then none
      else
        let total : Int := hours * 60 + minutes
        some (some (if sign == '-' then -total else total))
    else none

/-- The date and time that a text is written like. -/
def timestamp? (s : Text) : Option Timestamp := do
  let (year, r) ← digitsAhead 4 4 s
  let (month, r) ← digitsAhead 1 2 (← expect '-' r)
  let (day, r) ← digitsAhead 1 2 (← expect '-' r)
  if r.isEmpty then
    if s.length = 10 then some ⟨year, month, day, none, none⟩ else none
  else
    let r ← match r with
      | 'T' :: r => some r
      | 't' :: r => some r
      | c :: _ =>
        if c == ' ' || c == '\t' then some (r.dropWhile fun c => c == ' ' || c == '\t') else none
      | [] => none
    let (hour, r) ← digitsAhead 1 2 r
    let (minute, r) ← digitsAhead 2 2 (← expect ':' r)
    let (second, r) ← digitsAhead 2 2 (← expect ':' r)
    let r := match r with
      | '.' :: r => r.dropWhile Char.isDigit
      | r => r
    return ⟨year, month, day, some (hour, minute, second), ← zoneAhead r⟩

def isLeapYear (year : Nat) : Bool := year % 4 == 0 && (year % 100 != 0 || year % 400 == 0)

def daysIn (year month : Nat) : Nat :=
  if month = 2 then if isLeapYear year then 29 else 28
  else if month = 4 ∨ month = 6 ∨ month = 9 ∨ month = 11 then 30
  else 31

/-- A distance in minutes as days and seconds. -/
def describeOffset (minutes : Int) : Text :=
  let seconds := minutes * 60
  let days := seconds.fdiv 86400
  let rest := seconds.fmod 86400
  let part (name : Text) (n : Int) : List Text :=
    if n = 0 then [] else [name ++ "=" ++ Text.ofInt n]
  "datetime.timedelta(" ++ Text.join ", " (part "days" days ++ part "seconds" rest) ++ ")"

/-- What is wrong with a date, if anything is. -/
def Timestamp.fault? (t : Timestamp) : Option Text :=
  let farOffset := match t.offset with
    | some o => if o.natAbs < 1440 then none else some o
    | none => none
  match farOffset with
  | some o => some ("offset must be a timedelta strictly between -timedelta(hours=24) and " ++
      "timedelta(hours=24), not " ++ describeOffset o ++ ".")
  | none =>
    let (hour, minute, second) := t.time.getD (0, 0, 0)
    if t.year = 0 then some "year 0 is out of range"
    else if t.month = 0 ∨ 12 < t.month then some "month must be in 1..12"
    else if t.day = 0 ∨ daysIn t.year t.month < t.day then some "day is out of range for month"
    else if 23 < hour then some "hour must be in 0..23"
    else if 59 < minute then some "minute must be in 0..59"
    else if 59 < second then some "second must be in 0..59"
    else none

/-! ### Values -/

def scalarType (s : Text) : ScalarType :=
  if (booleanWords.lookup s).isSome then .boolean
  else if isFloat s then .float
  else if isInteger s then .integer
  else if s = ['<', '<'] then .merge
  else if nullWords.contains s then .null
  else if (timestamp? s).isSome then .timestamp
  else if s = ['='] then .value
  else .text

/-- The value of digits in a base; underscores do not count. -/
def numberInBase (base : Nat) (digits : Text) : Except BadScalar Nat :=
  let value (c : Char) : Option Nat :=
    let n :=
      if c.isDigit then c.toNat - 48
      else if 'a' ≤ c ∧ c ≤ 'z' then c.toNat - 87
      else if 'A' ≤ c ∧ c ≤ 'Z' then c.toNat - 55
      else base
    if n < base then some n else none
  if digits.isEmpty then .error (.notInteger base digits)
  else match digits.foldl (fun n c => n.bind fun n => (value c).map (n * base + ·)) (some 0) with
    | some n => .ok n
    | none => .error (.notInteger base digits)

/-- Groups of sixty, the last one least. -/
def sexagesimal (groups : List Nat) : Nat := groups.foldl (fun n g => n * 60 + g) 0

def integerValue (s : Text) : Except BadScalar Int := do
  let s := s.filter (· != '_')
  let digits := unsigned s
  let n ← match digits with
    | '0' :: 'b' :: r => numberInBase 2 r
    | '0' :: 'x' :: r => numberInBase 16 r
    | ['0'] => pure 0
    | '0' :: r => numberInBase 8 ('0' :: r)
    | r =>
      if r.contains ':' then do
        return sexagesimal (← (Text.split (· == ':') r).mapM (numberInBase 10))
      else numberInBase 10 r
  return if s.head? = some '-' then -(n : Int) else n

/-- A decimal fraction as its digits and a power of ten. -/
def decimalParts? (s : Text) : Option (Nat × Int) := do
  let mantissa := s.takeWhile fun c => c != 'e' && c != 'E'
  let exponent := s.drop (mantissa.length + 1)
  let whole := mantissa.takeWhile (· != '.')
  let fraction := mantissa.drop (whole.length + 1)
  let digits := whole ++ fraction
  if !isNonEmptyAll Char.isDigit digits then none
  else
    let n := Text.decimalValue digits
    if mantissa.length = s.length then some (n, -(fraction.length : Int))
    else if !isNonEmptyAll Char.isDigit (unsigned exponent) then none
    else
      let size := Text.decimalValue (unsigned exponent)
      let e : Int := if exponent.head? = some '-' then -(size : Int) else size
      some (n, e - fraction.length)

def floatValue (s : Text) : Except BadScalar Binary64 :=
  let s := (s.filter (· != '_')).map Char.toLower
  let sign : Int := if s.head? = some '-' then -1 else 1
  let r := unsigned s
  if r = ".inf".toList then .ok .infinite
  else if r = ".nan".toList then .ok .notANumber
  else
    match (Text.split (· == ':') r).mapM decimalParts? with
    | some [(n, e)] => .ok (.ofDecimal (sign * n) e)
    | some parts =>
      -- only the last group has a fraction
      let places : Nat := parts.foldl (fun p x => max p x.2.natAbs) 0
      let scaled (x : Nat × Int) : Nat := x.1 * Binary64.tenTo (places - x.2.natAbs)
      let total : Nat := parts.foldl (fun acc x => acc * 60 + scaled x) 0
      .ok (.ofDecimal (sign * total) (-(places : Int)))
    | none => .error (.notFloat r)

/-- The value of a scalar of a known type. -/
def ScalarType.value? (t : ScalarType) (s : Text) : Except BadScalar (Option Value) :=
  match t with
  | .boolean => .ok ((booleanWords.lookup (s.map Char.toLower)).map .boolean)
  | .float => (floatValue s).map fun x => some (.number x)
  | .integer => (integerValue s).map fun n => some (.integer n)
  | .null => .ok (some .null)
  | .timestamp =>
    match timestamp? s with
    | none => .ok none
    | some t =>
      match t.fault? with
      | some fault => .error (.outOfRange fault)
      | none => .ok (some (.other (if t.time.isSome then "datetime" else "date")))
  | .text => .ok (some (.text s))
  | .merge | .value => .ok none

end GenScope.Yaml
