import Mathlib.Data.List.Forall2
import TestRoster.Benchmark.Table

/-!
What is assumed of the operations on tables.

A table has one row per result, and tables below one another keep their rows. Columns keep their
values: only a count is rounded to the nearest binary number, which is the count itself up to 53
bits, where its column has to hold missing values or comes to hold binary numbers. Groups are told
in the order of first appearance and keep the order of their rows. What is missing counts nowhere.
-/
namespace TestRoster

/-- What becomes of a cell, perhaps in a column of binary numbers. -/
inductive Cell.Restates (binary : Prop) : Cell → Cell → Prop
  | same (cell : Cell) : Restates binary cell cell
  | exact (n : Nat) (x : Binary64) (rounded : binary) (same : x.isInt n = true) :
      Restates binary (.whole n) (.binary x)
  | nearest (n : Nat) (rounded : binary) (large : twoPow 53 ≤ n) :
      Restates binary (.whole n) (.binary (.ofInt n))
  | missing (rounded : binary) : Restates binary .absent (.binary .nan)

def Measures.metric {α : Type} (m : Measures α) : MetricUnit → α
  | .nsPerOp => m.nsPerOp
  | .bytesPerOp => m.bytesPerOp
  | .allocsPerOp => m.allocsPerOp
  | .mbPerSecond => m.mbPerSecond

def BenchmarkResult.metric (r : BenchmarkResult) : MetricUnit → Option Binary64
  | .nsPerOp => r.nsPerOp
  | .bytesPerOp => r.bytesPerOp
  | .allocsPerOp => r.allocsPerOp
  | .mbPerSecond => r.mbPerSecond

/-- A row of a table holds a result. Its processors may be rounded where `rounded` holds. -/
structure BenchmarkResult.Tabled (rounded : Prop) (r : BenchmarkResult) (row : ResultRow) :
    Prop where
  benchmark : row.benchmark = r.benchmark
  procs : (Cell.ofCount r.procs).Restates rounded row.measures.procs
  iterations : row.measures.iterations = .whole r.iterations
  metric : ∀ unit, row.measures.metric unit = .binary ((r.metric unit).getD .nan)

/-- Tables keep a column in different ways, or one of them keeps it as binary numbers. -/
def Mixes (column : List CellKind) : Prop :=
  .binary ∈ column ∨ .signed ∈ column ∧ .unsigned ∈ column

/-- A row of one of some tables among the rows of all of them. -/
structure StampedRow.Stacked (tables : List RunTable) (r r' : StampedRow) : Prop where
  runAt : r'.runAt = r.runAt
  benchmark : r'.row.benchmark = r.row.benchmark
  procs : r.row.measures.procs.Restates (Mixes (tables.map (·.kinds.procs))) r'.row.measures.procs
  iterations : r.row.measures.iterations.Restates (Mixes (tables.map (·.kinds.iterations)))
    r'.row.measures.iterations
  metric : ∀ unit, (r.row.measures.metric unit).Restates (Mixes (tables.map (·.kinds.metric unit)))
    (r'.row.measures.metric unit)

/-- One of some numbers that no other one is before. There is none only if there are no numbers. -/
def IsExtreme (before : Binary64 → Binary64 → Bool) (xs : List Binary64) : Option Binary64 → Prop
  | none => xs = []
  | some x => x ∈ xs ∧ ∀ y ∈ xs, before y x = false

/-- What some numbers come to. -/
structure Tally.Tells (xs : List Binary64) (t : Tally) : Prop where
  runs : t.runs = xs.length
  least : IsExtreme Binary64.lt xs t.least
  greatest : IsExtreme (fun x y => y.lt x) xs t.greatest

/-- The laws of the operations on tables. -/
structure Frames.Lawful (frames : Frames) : Prop where
  table : ∀ rs, List.Forall₂ (BenchmarkResult.Tabled (∃ r ∈ rs, r.procs = none)) rs
    (frames.table rs).rows
  stamp : ∀ time t, (frames.stamp time t).kinds = t.kinds ∧
    (frames.stamp time t).rows = t.rows.map fun row => ⟨time, row⟩
  stack : ∀ tables, tables ≠ [] → List.Forall₂ (StampedRow.Stacked tables)
    (tables.flatMap RunTable.rows) (frames.stack tables).rows
  names : ∀ t, (frames.groups t).map Prod.fst = (t.rows.map (·.row.benchmark)).eraseDups
  members : ∀ t, ∀ group ∈ frames.groups t, group.2 = t.rows.filter (·.row.benchmark == group.1)
  tally : ∀ (kind : CellKind) (xs : List Binary64),
    (frames.tally kind (xs.map .binary)).Tells (xs.filter fun x => !x.isNan)

namespace Cell

variable {binary other : Prop} {cell cell' : Cell}

theorem Restates.mono (kept : cell.Restates binary cell') (weaker : binary → other) :
    cell.Restates other cell' := by
  cases kept with
  | same => exact .same cell
  | exact n x rounded same => exact .exact n x (weaker rounded) same
  | nearest n rounded large => exact .nearest n (weaker rounded) large
  | missing rounded => exact .missing (weaker rounded)

theorem Restates.eq (kept : cell.Restates binary cell') (exact : ¬ binary) : cell' = cell := by
  cases kept with
  | same => rfl
  | exact n x rounded same => exact absurd rounded exact
  | nearest n rounded large => exact absurd rounded exact
  | missing rounded => exact absurd rounded exact

theorem number?_getD_nan {x : Option Binary64} (number : ∀ y ∈ x, y.isNan = false) :
    (Cell.binary (x.getD .nan)).number? = x := by
  cases x with
  | none => rfl
  | some y => rw [Option.getD_some, number?, number y rfl, if_neg Bool.false_ne_true]

theorem Restates.of_binary {x : Binary64} (kept : (Cell.binary x).Restates binary cell') :
    cell' = .binary x := by
  cases kept
  rfl

theorem numbers_binary (xs : List Binary64) :
    (xs.map Cell.binary).filterMap number? = xs.filter fun x => !x.isNan := by
  induction xs with
  | nil => rfl
  | cons x xs ih =>
      cases nan : x.isNan with
      | true => simpa [number?, nan] using ih
      | false => simpa [number?, nan] using ih

end Cell

theorem BenchmarkResult.Tabled.mono {rounded other : Prop} {r : BenchmarkResult} {row : ResultRow}
    (tabled : r.Tabled rounded row) (weaker : rounded → other) : r.Tabled other row :=
  { tabled with procs := tabled.procs.mono weaker }

end TestRoster
