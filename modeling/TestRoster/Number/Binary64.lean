import TestRoster.Number.Power

/-!
Binary floating-point numbers with 53 significant bits.

A finite number is a mantissa times a power of two, so every operation is exact arithmetic on
natural numbers followed by one rounding, to the nearest number and on a tie to the even mantissa.
-/
namespace TestRoster

/-- The numbers `±mantissa * 2 ^ exponent`, the two infinities and the value that is no number. -/
inductive Binary64 where
  | finite (negative : Bool) (mantissa : Nat) (exponent : Int)
  | infinite (negative : Bool)
  | nan
  deriving DecidableEq, Repr, Inhabited

/-- The quotient rounded to the nearest integer, on a tie to the even one. -/
def roundDiv (num den : Nat) : Nat :=
  let q := num / den
  let r := num % den
  if 2 * r < den then q
  else if den < 2 * r then q + 1
  else if q % 2 = 0 then q else q + 1

namespace Binary64

def leastExponent : Int := -1074

def greatestExponent : Int := 971

def zero : Binary64 := .finite false 0 leastExponent

/-- The fraction `num / (den * 2 ^ e)`. -/
def scaled (num den : Nat) (e : Int) : Nat × Nat :=
  if 0 ≤ e then (num, den * twoPow e.toNat) else (num * twoPow (-e).toNat, den)

/-- The number nearest to `num / den`. -/
def ofRatio (negative : Bool) (num den : Nat) : Binary64 :=
  if num = 0 then .finite negative 0 leastExponent
  else
    let guess : Int := (num.log2 : Int) - (den.log2 : Int) - 52
    let (n, d) := scaled num den guess
    let e := max leastExponent (if n / d < twoPow 52 then guess - 1 else guess)
    let (n, d) := scaled num den e
    let m := roundDiv n d
    let (m, e) := if m = twoPow 53 then (twoPow 52, e + 1) else (m, e)
    if greatestExponent < e then .infinite negative else .finite negative m e

/-- The number nearest to `digits * 10 ^ exponent`. Exponents beyond every finite number are not
worked out. -/
def ofDecimal (negative : Bool) (digits : Nat) (exponent : Int) : Binary64 :=
  if digits = 0 then .finite negative 0 leastExponent
  else if 400 < exponent then .infinite negative
  else if exponent < -(400 + (digits.log2 : Int)) then .finite negative 0 leastExponent
  else if 0 ≤ exponent then ofRatio negative (digits * tenPow exponent.toNat) 1
  else ofRatio negative digits (tenPow (-exponent).toNat)

def ofInt (n : Int) : Binary64 :=
  ofRatio (decide (n < 0)) n.natAbs 1

/-- A finite number as a signed integer over `2 ^ 1074`. -/
def units (negative : Bool) (mantissa : Nat) (exponent : Int) : Int :=
  let n : Int := (mantissa * twoPow (exponent - leastExponent).toNat : Nat)
  if negative then -n else n

/-- The number nearest to `units / (den * twoPow 1074)`. A zero takes the sign `negativeZero`. -/
def ofUnits (units : Int) (den : Nat) (negativeZero : Bool) : Binary64 :=
  if units = 0 then .finite negativeZero 0 leastExponent
  else ofRatio (decide (units < 0)) units.natAbs (den * twoPow 1074)

def neg : Binary64 → Binary64
  | .finite s m e => .finite (!s) m e
  | .infinite s => .infinite (!s)
  | .nan => .nan

def add : Binary64 → Binary64 → Binary64
  | .finite s m e, .finite t n f => ofUnits (units s m e + units t n f) 1 (s && t)
  | .infinite s, .infinite t => if s = t then .infinite s else .nan
  | .infinite s, .finite _ _ _ | .finite _ _ _, .infinite s => .infinite s
  | .nan, _ | _, .nan => .nan

def sub (x y : Binary64) : Binary64 :=
  x.add y.neg

/-- Division by a count. No number results from a count of zero. -/
def divNat : Binary64 → Nat → Binary64
  | _, 0 => .nan
  | .finite s m e, n => ofUnits (units s m e) n s
  | x, _ => x

def isNan : Binary64 → Bool
  | .nan => true
  | _ => false

/-- The order of numbers. What is no number stands in no relation. -/
def lt : Binary64 → Binary64 → Bool
  | .finite s m e, .finite t n f => decide (units s m e < units t n f)
  | .infinite s, .infinite t => s && !t
  | .infinite s, .finite _ _ _ => s
  | .finite _ _ _, .infinite t => !t
  | .nan, _ | _, .nan => false

/-- Equality of numbers: both zeros are one number, what is no number differs from itself. -/
def same : Binary64 → Binary64 → Bool
  | .finite s m e, .finite t n f => decide (units s m e = units t n f)
  | .infinite s, .infinite t => s == t
  | _, _ => false

def isZero : Binary64 → Bool
  | .finite _ m _ => m == 0
  | _ => false

/-- A finite number without its fraction. -/
def truncate? : Binary64 → Option Int
  | .finite s m e => some ((units s m e).tdiv (twoPow 1074))
  | _ => none

def isInt (x : Binary64) (n : Int) : Bool :=
  match x with
  | .finite s m e => decide (units s m e = n * twoPow 1074)
  | _ => false

def ltInt (x : Binary64) (n : Int) : Bool :=
  match x with
  | .finite s m e => decide (units s m e < n * twoPow 1074)
  | .infinite s => s
  | .nan => false

def gtInt (x : Binary64) (n : Int) : Bool :=
  match x with
  | .finite s m e => decide (n * twoPow 1074 < units s m e)
  | .infinite s => !s
  | .nan => false

end Binary64

end TestRoster
