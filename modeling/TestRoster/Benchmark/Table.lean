import TestRoster.Benchmark.Column
import TestRoster.Benchmark.Result
import TestRoster.Time.Moment

/-!
Tables of benchmark results, and their summaries.

How tables are kept, put below one another, grouped and written is not told here: `Frames` holds the
operations that are taken from elsewhere.
-/
namespace TestRoster

/-- One value for each column of numbers. -/
structure Measures (α : Type) where
  procs : α
  iterations : α
  nsPerOp : α
  bytesPerOp : α
  allocsPerOp : α
  mbPerSecond : α
  deriving DecidableEq, Repr

namespace Measures

def zipWith {α β γ : Type} (f : α → β → γ) (m : Measures α) (n : Measures β) : Measures γ :=
  ⟨f m.procs n.procs, f m.iterations n.iterations, f m.nsPerOp n.nsPerOp,
    f m.bytesPerOp n.bytesPerOp, f m.allocsPerOp n.allocsPerOp, f m.mbPerSecond n.mbPerSecond⟩

def toList {α : Type} (m : Measures α) : List α :=
  [m.procs, m.iterations, m.nsPerOp, m.bytesPerOp, m.allocsPerOp, m.mbPerSecond]

def names : Measures String where
  procs := "procs"
  iterations := "iterations"
  nsPerOp := "ns_per_op"
  bytesPerOp := "bytes_per_op"
  allocsPerOp := "allocs_per_op"
  mbPerSecond := "mb_per_s"

end Measures

structure ResultRow where
  benchmark : String
  measures : Measures Cell
  deriving DecidableEq, Repr

/-- The rows of one run, and how the columns are kept. -/
structure ResultTable where
  kinds : Measures CellKind
  rows : List ResultRow
  deriving DecidableEq, Repr

/-- A time in a table: a moment to the nanosecond, or none. -/
structure Timestamp where
  moment : Option Moment
  nanosecond : Nat := 0
  deriving DecidableEq, Repr

/-- A row of a table of several runs, with the time of its run. -/
structure StampedRow where
  runAt : Timestamp
  row : ResultRow
  deriving DecidableEq, Repr

structure RunTable where
  kinds : Measures CellKind
  rows : List StampedRow
  deriving DecidableEq, Repr

def RunTable.empty : RunTable :=
  ⟨⟨.mixed, .mixed, .mixed, .mixed, .mixed, .mixed⟩, []⟩

/-- What a column of numbers comes to. -/
structure Tally where
  runs : Nat
  mean : Option Binary64
  least : Option Binary64
  greatest : Option Binary64
  deriving DecidableEq, Repr

/-- What the times of one benchmark come to. -/
structure SummaryRow extends Tally where
  benchmark : String
  deriving DecidableEq, Repr

/-- A summary: how its columns of times are kept, and its rows. -/
structure Summary where
  kind : CellKind
  rows : List SummaryRow
  deriving DecidableEq, Repr

/-- The operations on tables. -/
structure Frames where
  /-- The table with one row per result. -/
  table : List BenchmarkResult → ResultTable
  /-- The time that a text tells. -/
  time : String → Except Raised Timestamp
  /-- A table with the same time in front of each row. -/
  stamp : Timestamp → ResultTable → RunTable
  /-- Tables below one another. -/
  stack : List RunTable → RunTable
  /-- The rows of each benchmark, with its name. -/
  groups : RunTable → List (String × List StampedRow)
  /-- The count, the mean, the least and the greatest of the cells of a column. -/
  tally : CellKind → List Cell → Tally
  runText : RunTable → String
  summaryText : Summary → String

def ResultTable.ofOutput (frames : Frames) (output : String) : Except Failure ResultTable :=
  (BenchmarkResult.ofOutput output).map frames.table

/-- The tables of some runs below one another. Without runs there is nothing to stack. -/
def RunTable.ofRuns (frames : Frames) : List RunTable → RunTable
  | [] => empty
  | run :: rest => frames.stack (run :: rest)

def RunTable.summary (frames : Frames) (t : RunTable) : Summary :=
  if t.rows.isEmpty then ⟨.mixed, []⟩
  else
    ⟨t.kinds.nsPerOp, (frames.groups t).map fun group =>
      { frames.tally t.kinds.nsPerOp (group.2.map (·.row.measures.nsPerOp)) with
        benchmark := group.1 }⟩

end TestRoster
