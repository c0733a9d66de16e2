import TestRoster.Number.Binary64
import TestRoster.Run.Failure
import TestRoster.Text.Split

/-!
Results of benchmarks in the output of a run.

A result line holds the name, with the number of processors after a hyphen, the number of
iterations, and then pairs of a number and a unit. All other lines are passed over, and so are units
that are not known.
-/
namespace TestRoster

structure BenchmarkResult where
  benchmark : String
  procs : Option Nat
  iterations : Nat
  nsPerOp : Option Binary64 := none
  bytesPerOp : Option Binary64 := none
  allocsPerOp : Option Binary64 := none
  mbPerSecond : Option Binary64 := none
  deriving DecidableEq, Repr

inductive MetricUnit where
  | nsPerOp
  | bytesPerOp
  | allocsPerOp
  | mbPerSecond
  deriving DecidableEq, Repr

def MetricUnit.ofWord? (word : List Char) : Option MetricUnit :=
  match String.ofList word with
  | "ns/op" => some .nsPerOp
  | "B/op" => some .bytesPerOp
  | "allocs/op" => some .allocsPerOp
  | "MB/s" => some .mbPerSecond
  | _ => none

namespace BenchmarkResult

/-- Sets a metric. The last number of a unit counts. -/
def set (r : BenchmarkResult) (x : Binary64) : MetricUnit → BenchmarkResult
  | .nsPerOp => { r with nsPerOp := some x }
  | .bytesPerOp => { r with bytesPerOp := some x }
  | .allocsPerOp => { r with allocsPerOp := some x }
  | .mbPerSecond => { r with mbPerSecond := some x }

/-- A number as it is written: digits and points, and an exponent. -/
structure Measure where
  mantissa : List Char
  negative : Bool := false
  exponent : List Char := []

def isMantissaChar (c : Char) : Bool :=
  c == '.' || ('0' ≤ c && c ≤ '9')

def measure? (word : List Char) : Option Measure :=
  let mantissa := word.takeWhile isMantissaChar
  if mantissa = [] then none
  else
    match word.drop mantissa.length with
    | [] => some { mantissa := mantissa }
    | e :: rest =>
        if e ≠ 'e' ∧ e ≠ 'E' then none
        else
          let (negative, digits) := signed rest
          if digits ≠ [] ∧ digits.all isDecimalDigit then
            some { mantissa := mantissa, negative := negative, exponent := digits }
          else none

def measureAtEnd? : List Char → Option (List Char × Measure)
  | [] => none
  | c :: rest =>
      match measure? (c :: rest) with
      | some n => some (c :: rest, n)
      | none => measureAtEnd? rest

def digitsValue (ds : List Char) : Nat :=
  ds.foldl (fun n c => n * 10 + (decimalDigit? c).getD 0) 0

/-- The value of a number. It has one point at most, and a digit. -/
def Measure.value? (n : Measure) : Option Binary64 :=
  let whole := n.mantissa.takeWhile (· != '.')
  let fraction := (n.mantissa.drop whole.length).drop 1
  if fraction.contains '.' ∨ (whole = [] ∧ fraction = []) then none
  else
    let e : Int := digitsValue n.exponent
    some (Binary64.ofDecimal false (digitsValue (whole ++ fraction))
      ((if n.negative then -e else e) - fraction.length))

/-- The pairs of numbers and units among words. The word after a number is its unit. -/
def pairs : List (List Char) → List ((List Char × Measure) × List Char)
  | word :: unit :: rest =>
      match measureAtEnd? word with
      | some n => (n, unit) :: pairs rest
      | none => pairs (unit :: rest)
  | _ => []
termination_by words => words.length

def words (cs : List Char) : List (List Char) :=
  let step (c : Char) (acc : List (List Char)) : List (List Char) :=
    if isBlank c then [] :: acc
    else match acc with
      | [] => [[c]]
      | word :: rest => (c :: word) :: rest
  (cs.foldr step [[]]).filter (· != [])

def addPairs (r : BenchmarkResult) :
    List ((List Char × Measure) × List Char) → Except Failure BenchmarkResult
  | [] => .ok r
  | ((text, n), unit) :: rest =>
      match MetricUnit.ofWord? unit with
      | none => addPairs r rest
      | some metric =>
          match n.value? with
          | some x => addPairs (r.set x metric) rest
          | none => .error (.notAFloat (String.ofList text))

def nameStart : List Char := "Benchmark".toList

def splitProcs (word : List Char) : List Char × List Char :=
  let digits := (word.reverse.takeWhile isDecimalDigit).reverse
  let front := word.take (word.length - digits.length)
  if digits ≠ [] ∧ front.getLast? = some '-' ∧ nameStart.length < front.length then
    (front.dropLast, digits)
  else (word, [])

def count (digits : List Char) : Except Failure Nat :=
  match Numeral.ofMagnitude digits with
  | .ok n => .ok n
  | .error (.tooLong n) => .error (.misuse (.numeralTooLong n))
  | .error .malformed => .error (.misuse (.notANumeral (String.ofList digits)))

/-- The parts of a result line: name, processors, iterations, and the rest. -/
def parts? (line : List Char) : Option (List Char × List Char × List Char × List Char) :=
  let word := line.takeWhile (!isBlank ·)
  let afterName := trimStart (line.drop word.length)
  let iterations := afterName.takeWhile isDecimalDigit
  let rest := afterName.drop iterations.length
  if !nameStart.isPrefixOf word || iterations = [] || !(rest.head?.any isBlank) then none
  else
    let (name, procs) := splitProcs word
    some (name, procs, iterations, trimStart rest)

def ofLine (line : List Char) : Except Failure (Option BenchmarkResult) :=
  match parts? (trim line) with
  | none => .ok none
  | some (name, procs, iterations, rest) => do
      let procs ← if procs = [] then pure none else some <$> count procs
      let iterations ← count iterations
      let r : BenchmarkResult :=
        { benchmark := String.ofList name, procs := procs, iterations := iterations }
      return some (← r.addPairs (pairs (words rest)))

def ofLines : List (List Char) → Except Failure (List BenchmarkResult)
  | [] => .ok []
  | line :: rest => do
      match ← ofLine line with
      | some r => return r :: (← ofLines rest)
      | none => ofLines rest

def ofOutput (output : String) : Except Failure (List BenchmarkResult) :=
  ofLines (breakLines output.toList)

end BenchmarkResult

end TestRoster
