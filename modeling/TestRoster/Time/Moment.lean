import TestRoster.Number.Power
import TestRoster.Text.Digit

/-!
Moments of the calendar and their written form.

A moment is a date, a time of day and, where the zone is known, its distance to universal time. It
is written with a fraction of a second only where there is one.
-/
namespace TestRoster

/-- A date and a time of day. The offset is in microseconds. -/
structure Moment where
  year : Nat
  month : Nat
  day : Nat
  hour : Nat := 0
  minute : Nat := 0
  second : Nat := 0
  microsecond : Nat := 0
  offset : Option Int := none
  deriving DecidableEq, Repr, Inhabited

namespace Moment

def padded (width n : Nat) : String :=
  let digits := Nat.toDigits 10 n
  String.ofList (List.replicate (width - digits.length) '0' ++ digits)

def microsecondText (n : Nat) : String :=
  if n = 0 then "" else "." ++ padded 6 n

/-- The distance to universal time, with its seconds only where it is no number of minutes. -/
def offsetText (offset : Int) : String :=
  let n := offset.natAbs / 1000000
  let fraction := offset.natAbs % 1000000
  (if offset < 0 then "-" else "+") ++ padded 2 (n / 3600) ++ ":" ++ padded 2 (n / 60 % 60) ++
    (if n % 60 = 0 ∧ fraction = 0 then ""
    else ":" ++ padded 2 (n % 60) ++ microsecondText fraction)

def dateText (m : Moment) : String :=
  padded 4 m.year ++ "-" ++ padded 2 m.month ++ "-" ++ padded 2 m.day

def clockText (m : Moment) : String :=
  padded 2 m.hour ++ ":" ++ padded 2 m.minute ++ ":" ++ padded 2 m.second

def fractionText (m : Moment) : String :=
  microsecondText m.microsecond

def zoneText (m : Moment) : String :=
  match m.offset with
  | none => ""
  | some offset => offsetText offset

/-- The written form, with a separator between date and time. -/
def text (separator : String) (m : Moment) : String :=
  m.dateText ++ separator ++ m.clockText ++ m.fractionText ++ m.zoneText

def stamp (m : Moment) : String :=
  m.text "T"

def isMidnight (m : Moment) : Bool :=
  m.hour == 0 && m.minute == 0 && m.second == 0 && m.microsecond == 0

def isLeap (year : Nat) : Bool :=
  (year % 4 == 0 && year % 100 != 0) || year % 400 == 0

def daysIn (year month : Nat) : Nat :=
  if month = 2 then (if isLeap year then 29 else 28)
  else if [4, 6, 9, 11].contains month then 30 else 31

def nextDay (m : Moment) : Moment :=
  if m.day < daysIn m.year m.month then { m with day := m.day + 1 }
  else if m.month < 12 then { m with month := m.month + 1, day := 1 }
  else { m with year := m.year + 1, month := 1, day := 1 }

def nextSecond (m : Moment) : Moment :=
  if m.second < 59 then { m with second := m.second + 1 }
  else if m.minute < 59 then { m with minute := m.minute + 1, second := 0 }
  else if m.hour < 23 then { m with hour := m.hour + 1, minute := 0, second := 0 }
  else { m with hour := 0, minute := 0, second := 0 }.nextDay

def digitOf? (c : Char) : Option Nat :=
  if '0' ≤ c ∧ c ≤ '9' then some (c.toNat - 48) else none

/-- A number of exactly so many digits, and the rest. -/
def number? : Nat → List Char → Option (Nat × List Char)
  | 0, cs => some (0, cs)
  | _ + 1, [] => none
  | width + 1, c :: cs => do
      let d ← digitOf? c
      let (n, rest) ← number? width cs
      return (d * tenPow width + n, rest)

def after? (separator : Char) (width : Nat) : List Char → Option (Nat × List Char)
  | [] => none
  | c :: cs => if c = separator then number? width cs else none

/-- The digits of a fraction as microseconds; digits beyond the sixth are dropped. -/
def fraction? (cs : List Char) : Option (Nat × List Char) :=
  match cs with
  | c :: rest =>
      if c = '.' ∨ c = ',' then
        let digits := rest.takeWhile fun c => (digitOf? c).isSome
        let six := (digits ++ List.replicate 6 '0').take 6
        if digits = [] then none
        else some (six.foldl (fun n c => n * 10 + (digitOf? c).getD 0) 0, rest.drop digits.length)
      else some (0, cs)
  | [] => some (0, cs)

def zone? : List Char → Option (Option Int)
  | [] => some none
  | ['Z'] | ['z'] => some (some 0)
  | sign :: cs => do
      if sign ≠ '+' ∧ sign ≠ '-' then none
      let (hours, rest) ← number? 2 cs
      let colon := rest.head? == some ':'
      let part (rest : List Char) : Option (Nat × List Char) :=
        if rest.isEmpty ∨ rest.head? = some '.' ∨ rest.head? = some ',' then some (0, rest)
        else if colon then after? ':' 2 rest else number? 2 rest
      let (minutes, rest) ← part rest
      let (seconds, rest) ← part rest
      let (microseconds, rest) ← fraction? rest
      if rest ≠ [] ∨ 24 ≤ hours ∨ 60 ≤ minutes ∨ 60 ≤ seconds then none
      let n : Int := ((hours * 3600 + minutes * 60 + seconds) * 1000000 + microseconds : Nat)
      return some (if sign = '-' then -n else n)

def clock? (date : Moment) (cs : List Char) : Option Moment := do
  let (hour, rest) ← number? 2 cs
  let (minute, rest) ← if rest.head? = some ':' then after? ':' 2 rest else some (0, rest)
  let (second, rest) ← if rest.head? = some ':' then after? ':' 2 rest else some (0, rest)
  let (microsecond, rest) ← fraction? rest
  let offset ← zone? rest
  if 24 ≤ hour ∨ 60 ≤ minute ∨ 60 ≤ second then none
  return { date with
    hour := hour, minute := minute, second := second, microsecond := microsecond, offset := offset }

/-- Reads a date, alone or with a time of day. -/
def parse? (s : String) : Option Moment := do
  let (year, rest) ← number? 4 s.toList
  let (month, rest) ← after? '-' 2 rest
  let (day, rest) ← after? '-' 2 rest
  if year = 0 ∨ month = 0 ∨ 12 < month ∨ day = 0 ∨ daysIn year month < day then none
  let date : Moment := { year := year, month := month, day := day }
  match rest with
  | [] => return date
  | separator :: rest =>
      if separator = 'T' ∨ separator = ' ' then clock? date rest else none

end Moment

end TestRoster
