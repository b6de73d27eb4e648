/-!
# Binary numbers of double precision

A finite number is a significand of at most 53 bits times a power of two. Every operation is
exact on fractions and then rounded once, to the nearest number and on a tie to the even
significand.
-/

namespace GenScope

inductive Binary64
  | finite (significand exponent : Int)
  | infinite
  | notANumber
deriving DecidableEq, Repr

namespace Binary64

def twoTo (n : Nat) : Nat := Nat.pow 2 n

def tenTo (n : Nat) : Nat := Nat.pow 10 n

/-- The nearest whole number to a quotient; a tie goes to the even one. -/
def roundQuotient (num den : Nat) : Nat :=
  let q := num / den
  let twice := 2 * (num % den)
  if twice > den ∨ (twice = den ∧ q % 2 = 1) then q + 1 else q

/-- A quotient with both parts scaled so that it counts in units of a power of two. -/
def scaled (num den : Nat) (exponent : Int) : Nat × Nat :=
  if 0 ≤ exponent then (num, den * twoTo exponent.toNat) else (num * twoTo exponent.natAbs, den)

/-- The exponent at which a positive quotient has 53 bits, or the least one there is. -/
def exponentFor (num den : Nat) : Int :=
  let guess : Int := (num.log2 : Int) - (den.log2 : Int) - 52
  let (n, d) := scaled num den guess
  max (if n / d < twoTo 52 then guess - 1 else guess) (-1074)

/-- The number nearest to a fraction. -/
def ofRatio (num : Int) (den : Nat) : Binary64 :=
  if num = 0 ∨ den = 0 then .finite 0 0
  else
    let exponent := exponentFor num.natAbs den
    let (n, d) := scaled num.natAbs den exponent
    let significand := roundQuotient n d
    if 971 < exponent ∨ (exponent = 971 ∧ significand = twoTo 53) then .infinite
    else .finite (num.sign * significand) exponent

/-- A finite number as a fraction. -/
def toRatio (significand exponent : Int) : Int × Nat :=
  if 0 ≤ exponent then (significand * twoTo exponent.toNat, 1)
  else (significand, twoTo exponent.natAbs)

/-- A decimal fraction: an integer times a power of ten. Powers beyond the range are cut off. -/
def ofDecimal (digits exponent : Int) : Binary64 :=
  if 400 < exponent then (if digits = 0 then .finite 0 0 else .infinite)
  else if 0 ≤ exponent then ofRatio (digits * tenTo exponent.toNat) 1
  else ofRatio digits (tenTo exponent.natAbs)

def sub : Binary64 → Binary64 → Binary64
  | .finite s e, .finite s' e' =>
    let (n, d) := toRatio s e
    let (n', d') := toRatio s' e'
    ofRatio (n * d' - n' * d) (d * d')
  | _, _ => .notANumber

def mul : Binary64 → Binary64 → Binary64
  | .finite s e, .finite s' e' =>
    let (n, d) := toRatio s e
    let (n', d') := toRatio s' e'
    ofRatio (n * n') (d * d')
  | _, _ => .notANumber

/-- The whole part of a finite number. -/
def truncate : Binary64 → Int
  | .finite s e => let (n, d) := toRatio s e; n.tdiv d
  | _ => 0

/-- The value of a whole number. -/
def toInt? : Binary64 → Option Int
  | .finite s e =>
    let (n, d) := toRatio s e
    if n.tmod d = 0 then some (n.tdiv d) else none
  | _ => none

def isZero (x : Binary64) : Bool := x.toInt? == some 0

end Binary64

end GenScope
