import TestRoster.Number.Binary64

/-!
The fewest decimal digits that read back as a given binary number.

A decimal reads back when it lies between the midpoints to the two neighbours of the number, the
ends included for an even mantissa. For one digit, two digits and so on the two decimals around the
number on that grid are tried; the first grid with a hit wins, and of two hits the nearer one.
-/
namespace TestRoster

/-- The decimal `0.d₁d₂… * 10 ^ point`. -/
structure Decimal where
  digits : List Char
  point : Int
  deriving DecidableEq, Repr

namespace Decimal

/-- The point of `num / den`: the exponent for which the fraction lies below `10 ^ point` and not
below a tenth of it. -/
def pointOf (num den : Nat) : Int :=
  ((Nat.toDigits 10 (num * tenPow 340 / den)).length : Int) - 340

/-- The interval of reals that read back as `mantissa * 2 ^ exponent`, with the number itself, as
numerators over one denominator. -/
structure Interval where
  low : Nat
  value : Nat
  high : Nat
  den : Nat
  closed : Bool

def Interval.ofBinary (mantissa : Nat) (exponent : Int) : Interval :=
  let gap := if mantissa = twoPow 52 ∧ Binary64.leastExponent < exponent then 1 else 2
  let closed := mantissa % 2 == 0
  let unit := if 0 ≤ exponent then twoPow exponent.toNat else 1
  let den := if 0 ≤ exponent then 4 else 4 * twoPow (-exponent).toNat
  ⟨(4 * mantissa - gap) * unit, 4 * mantissa * unit, (4 * mantissa + 2) * unit, den, closed⟩

def Interval.holds (i : Interval) (count : Nat) (grid : Int) : Bool :=
  let x := count * tenPow grid.toNat * i.den
  let scale := tenPow (-grid).toNat
  if i.closed then decide (i.low * scale ≤ x ∧ x ≤ i.high * scale)
  else decide (i.low * scale < x ∧ x < i.high * scale)

def Interval.onGrid? (i : Interval) (grid : Int) : Option Nat :=
  let num := i.value * tenPow (-grid).toNat
  let den := i.den * tenPow grid.toNat
  let below := num / den
  let twice := 2 * (num % den)
  match i.holds below grid, i.holds (below + 1) grid with
  | true, true =>
      if twice < den then some below
      else if den < twice then some (below + 1)
      else if below % 2 = 0 then some below else some (below + 1)
  | true, false => some below
  | false, true => some (below + 1)
  | false, false => none

def stripZeros (ds : List Char) : List Char :=
  (ds.reverse.dropWhile (· == '0')).reverse

/-- Tries grids of `count` digits and more, `fuel` of them. Seventeen digits always suffice. -/
def Interval.search (i : Interval) (point : Int) (count : Nat) : Nat → Decimal
  | 0 => ⟨['0'], point⟩
  | fuel + 1 =>
      match i.onGrid? (point - count) with
      | some n =>
          let ds := Nat.toDigits 10 n
          ⟨stripZeros ds, point - count + ds.length⟩
      | none => i.search point (count + 1) fuel

def shortest (mantissa : Nat) (exponent : Int) : Decimal :=
  let i := Interval.ofBinary mantissa exponent
  i.search (pointOf i.value i.den) 1 17

end Decimal

namespace Binary64

def zeros (n : Nat) : List Char :=
  List.replicate n '0'

/-- Positional from `0.0001` up to below `10 ^ 16`, with at least one digit after the point; else
one digit before the point and an exponent of at least two digits. -/
def decimalText (d : Decimal) : List Char :=
  let n := d.digits.length
  if d.point < -3 ∨ 16 < d.point then
    let e := d.point - 1
    let magnitude := Nat.toDigits 10 e.natAbs
    let fraction := if n ≤ 1 then [] else '.' :: d.digits.tail
    d.digits.take 1 ++ fraction ++ ['e', if e < 0 then '-' else '+'] ++
      zeros (2 - magnitude.length) ++ magnitude
  else if d.point ≤ 0 then '0' :: '.' :: zeros (-d.point).toNat ++ d.digits
  else
    let p := d.point.toNat
    if n ≤ p then d.digits ++ zeros (p - n) ++ ['.', '0']
    else d.digits.take p ++ '.' :: d.digits.drop p

/-- The written form of a number, with the given words for what has no digits. -/
def text (infinity notNumber : String) : Binary64 → String
  | .finite s m e =>
      let body := if m = 0 then ['0', '.', '0'] else decimalText (Decimal.shortest m e)
      String.ofList (if s then '-' :: body else body)
  | .infinite s => if s then "-" ++ infinity else infinity
  | .nan => notNumber

end Binary64

end TestRoster
