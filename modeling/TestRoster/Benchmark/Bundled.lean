import TestRoster.Benchmark.Text

/-!
The operations on tables that come with the program.

Whole numbers are exact as long as every cell is there and they fit a machine word; with cells
missing they become binary numbers and may be rounded. What does not fit any word is kept as it is,
in a column of mixed cells. Columns that are kept in different ways are kept as binary numbers
together.
-/
namespace TestRoster

namespace CellKind

def join : CellKind → CellKind → CellKind
  | .mixed, _ | _, .mixed => .mixed
  | .signed, .signed => .signed
  | .unsigned, .unsigned => .unsigned
  | _, _ => .binary

def convert : CellKind → Cell → Cell
  | .binary, .whole n => .binary (Binary64.ofInt n)
  | .binary, .absent => .binary .nan
  | _, cell => cell

def signedLimit : Nat := twoPow 63

/-- The end of the numbers in a word without a sign. -/
def unsignedLimit : Nat := twoPow 64

def isTooLarge (n : Nat) : Bool :=
  match Binary64.ofInt n with
  | .infinite _ => true
  | _ => false

/-- The cells that decide how a column is kept: all of them, or those up to the first number that
fits no word, unless a cell is absent before it. -/
def decisive : List (Option Nat) → List (Option Nat)
  | [] => []
  | none :: rest => none :: rest
  | some n :: rest => if unsignedLimit ≤ n then [some n] else some n :: decisive rest

/-- How a column of whole numbers is kept, some of which may be absent. -/
def ofWholes (cells : List (Option Nat)) : CellKind :=
  let deciding := decisive cells
  let numbers := deciding.filterMap id
  if numbers = [] ∨ numbers.any isTooLarge then .mixed
  else if deciding.contains none then .binary
  else if numbers.all (· < signedLimit) then .signed
  else if numbers.all (· < unsignedLimit) then .unsigned
  else .mixed

end CellKind

def metricCell (x : Option Binary64) : Cell :=
  .binary (x.getD .nan)

def BenchmarkResult.row (r : BenchmarkResult) : ResultRow where
  benchmark := r.benchmark
  measures :=
    { procs := .ofCount r.procs
      iterations := .whole r.iterations
      nsPerOp := metricCell r.nsPerOp
      bytesPerOp := metricCell r.bytesPerOp
      allocsPerOp := metricCell r.allocsPerOp
      mbPerSecond := metricCell r.mbPerSecond }

def ResultRow.convert (kinds : Measures CellKind) (r : ResultRow) : ResultRow :=
  { r with measures := kinds.zipWith CellKind.convert r.measures }

def ResultTable.ofResults (rs : List BenchmarkResult) : ResultTable :=
  let metrics := if rs = [] then CellKind.mixed else .binary
  let kinds : Measures CellKind :=
    { procs := CellKind.ofWholes (rs.map BenchmarkResult.procs)
      iterations := CellKind.ofWholes (rs.map fun r => some r.iterations)
      nsPerOp := metrics
      bytesPerOp := metrics
      allocsPerOp := metrics
      mbPerSecond := metrics }
  ⟨kinds, rs.map fun r => r.row.convert kinds⟩

def ResultTable.stamped (time : Timestamp) (t : ResultTable) : RunTable :=
  ⟨t.kinds, t.rows.map fun row => ⟨time, row⟩⟩

namespace RunTable

/-- How the columns of some tables are kept together. -/
def joinKinds (first : Measures CellKind) (rest : List RunTable) : Measures CellKind :=
  rest.foldl (fun kinds next => kinds.zipWith CellKind.join next.kinds) first

/-- A column is kept in one way for all tables, so each cell is converted once. -/
def stack : List RunTable → RunTable
  | [] => empty
  | t :: rest =>
      let kinds := joinKinds t.kinds rest
      ⟨kinds, ((t :: rest).flatMap rows).map fun r => { r with row := r.row.convert kinds }⟩

/-- The rows by benchmark, in the order in which the benchmarks appear first. -/
def groups (t : RunTable) : List (String × List StampedRow) :=
  (t.rows.map (·.row.benchmark)).eraseDups.map fun name =>
    (name, t.rows.filter (·.row.benchmark == name))

end RunTable

/-- The sum of numbers with the rounding error of each step made up for in the next one. -/
def compensatedSum (xs : List Binary64) : Binary64 :=
  (xs.foldl (fun (state : Binary64 × Binary64) x =>
    let (sum, error) := state
    let y := x.sub error
    let next := sum.add y
    let error := (next.sub sum).sub y
    (next, if error.isNan then Binary64.zero else error)) (Binary64.zero, Binary64.zero)).1

def plainSum (xs : List Binary64) : Binary64 :=
  xs.foldl Binary64.add Binary64.zero

/-- The least number by an order. -/
def extreme (before : Binary64 → Binary64 → Bool) : List Binary64 → Option Binary64
  | [] => none
  | x :: xs => some (xs.foldl (fun least y => if before y least then y else least) x)

def Tally.ofCells (kind : CellKind) (cells : List Cell) : Tally :=
  let xs := cells.filterMap Cell.number?
  let sum := if kind = .mixed then plainSum xs else compensatedSum xs
  { runs := xs.length
    mean := if xs = [] then none else some (sum.divNat xs.length)
    least := extreme Binary64.lt xs
    greatest := extreme (fun x y => y.lt x) xs }

def Timestamp.parse (text : String) : Except Raised Timestamp :=
  match Moment.parse? text with
  | some moment => .ok { moment := some moment }
  | none =>
      .error ⟨"DateParseError", "Unknown datetime string format, unable to parse: " ++ text⟩

def Frames.bundled : Frames where
  table := ResultTable.ofResults
  time := Timestamp.parse
  stamp := ResultTable.stamped
  stack := RunTable.stack
  groups := RunTable.groups
  tally := Tally.ofCells
  runText := RunTable.text
  summaryText := Summary.text

end TestRoster
