import TestRoster.Number.Shortest

/-!
Decimal texts with a given number of places.

The exact value is rounded once, on a tie to the even neighbour.
-/
namespace TestRoster

namespace Binary64

def unsignedFixed (places num den : Nat) : List Char :=
  let digits := Nat.toDigits 10 (roundDiv (num * tenPow places) den)
  let digits := zeros (places + 1 - digits.length) ++ digits
  let whole := digits.length - places
  digits.take whole ++ '.' :: digits.drop whole

/-- A positive fraction with one digit before the point and an exponent of at least two digits. -/
def unsignedScientific (places num den : Nat) : List Char :=
  let e := Decimal.pointOf num den - 1
  let (n, d) :=
    if 0 ≤ e then (num * tenPow places, den * tenPow e.toNat)
    else (num * tenPow (places + (-e).toNat), den)
  let rounded := roundDiv n d
  let (rounded, e) := if rounded = tenPow (places + 1) then (tenPow places, e + 1) else (rounded, e)
  let digits := Nat.toDigits 10 rounded
  let magnitude := Nat.toDigits 10 e.natAbs
  digits.take 1 ++ '.' :: digits.drop 1 ++ ['e', if e < 0 then '-' else '+'] ++
    zeros (2 - magnitude.length) ++ magnitude

def ratio (mantissa : Nat) (exponent : Int) : Nat × Nat :=
  (mantissa * twoPow exponent.toNat, twoPow (-exponent).toNat)

/-- Writes a number with the digits that `digits` makes of its magnitude. -/
def signedText (digits : Nat → Nat → List Char) : Binary64 → String
  | .finite s m e =>
      let (num, den) := ratio m e
      String.ofList ((if s then ['-'] else []) ++ digits num den)
  | .infinite s => if s then "-inf" else "inf"
  | .nan => "nan"

def fixedText (places : Nat) : Binary64 → String :=
  signedText (unsignedFixed places)

/-- The number with one digit before the point and so many places after it. -/
def scientificText (places : Nat) : Binary64 → String :=
  signedText fun num den =>
    if num = 0 then '0' :: '.' :: zeros places ++ ['e', '+', '0', '0']
    else unsignedScientific places num den

end Binary64

end TestRoster
