import TestRoster.Proofs.Benchmark.Bundled
import TestRoster.Proofs.Benchmark.Printed

/-!
The table of printed results.

It has one row per printed result, in order, and no others. Names, iterations and metrics are those
that were printed. Processors are too, but where some result is printed without them, they may be
rounded.
-/
namespace TestRoster

namespace Printed

/-- A row tells what is printed. Its processors may be rounded where `rounded` holds. -/
structure Result.Tabled (rounded : Prop) (r : Result) (row : ResultRow) : Prop where
  benchmark : row.benchmark = String.ofList r.name
  procs : (Cell.ofCount (r.procs.map Count.value)).Restates rounded row.measures.procs
  iterations : row.measures.iterations = .whole r.iterations.value
  metric : ∀ unit, (row.measures.metric unit).number? = r.last unit

variable {frames : Frames} {page : List Line} {r : Result} {unit : MetricUnit}

theorem isNan_last {x : Binary64} (last : r.last unit = some x) : x.isNan = false := by
  rw [Result.last, Option.map_eq_some_iff] at last
  obtain ⟨m, -, rfl⟩ := last
  exact Binary64.isNan_ofDecimal _ _ _

theorem metric_told (r : Result) (unit : MetricUnit) : r.told.metric unit = r.last unit := by
  cases unit <;> rfl

/-- The row of what a result tells is the row of the result. -/
theorem tabled_of_told {rounded : Prop} {row : ResultRow} (tabled : r.told.Tabled rounded row) :
    r.Tabled rounded row where
  benchmark := tabled.benchmark
  procs := tabled.procs
  iterations := tabled.iterations
  metric unit := by
    rw [tabled.metric, metric_told, Cell.number?_getD_nan]
    exact fun x last => isNan_last last

theorem tableOf_pageText (frames : Frames) (page : List Line) :
    ResultTable.ofOutput frames (pageText page) =
      .ok (frames.table ((results page).map Result.told)) := by
  rw [ResultTable.ofOutput, ofOutput_pageText]
  rfl

/-- The table of a page has one row per printed result, in order, with the name, the iterations and
for each unit the last number that are printed, and with the processors, which are rounded only
where some result is printed without them. -/
theorem printed_results_are_tabled (lawful : frames.Lawful) (page : List Line) :
    ∃ t, ResultTable.ofOutput frames (pageText page) = .ok t ∧
      List.Forall₂ (Result.Tabled (∃ r ∈ results page, r.procs = none)) (results page) t.rows := by
  refine ⟨_, tableOf_pageText frames page, ?_⟩
  have rows := lawful.table ((results page).map Result.told)
  rw [List.forall₂_map_left_iff] at rows
  refine rows.imp fun r row tabled => tabled_of_told (tabled.mono ?_)
  rintro ⟨told, member, none'⟩
  obtain ⟨r, printed, rfl⟩ := List.mem_map.mp member
  exact ⟨r, printed, Option.map_eq_none_iff.mp none'⟩

/-- A metric that is printed with single blanks. -/
def oneNanosecond : Metric where
  before := { chars := [' '] }
  number := { whole := ['1'] }
  between := { chars := [' '] }
  unit := "ns/op".toList

def plainResult (procs : Option Count) (iterations : Count) : Result where
  name := "BenchmarkX".toList
  procs := procs
  before := { chars := [' '] }
  iterations := iterations
  metrics := [oneNanosecond]
  starts := ⟨['X'], rfl⟩
  plain := by
    intro _ front digits _ same
    have hyphen : '-' ∈ "BenchmarkX".toList := same ▸ by simp
    exact absurd hyphen (by decide)
  paired := by simp

/-- Two results, the second one without its processors. -/
def unevenPage : List Line :=
  [.result (plainResult (some { digits := "9007199254740993".toList }) { digits := ['1'] }),
    .result (plainResult none { digits := ['1'] })]

theorem uneven_results_are_tabled :
    Frames.bundled.Lawful ∧ ∃ t, ResultTable.ofOutput .bundled (pageText unevenPage) = .ok t ∧
      List.Forall₂ (Result.Tabled (∃ r ∈ results unevenPage, r.procs = none)) (results unevenPage)
        t.rows :=
  ⟨Frames.lawful_bundled, printed_results_are_tabled Frames.lawful_bundled unevenPage⟩

/-- A large number of processors is rounded since the number below it is missing. -/
theorem large_processors_are_not_recovered :
    (ResultTable.ofOutput .bundled
        "BenchmarkX-9007199254740993 1 1 ns/op\nBenchmarkX 1 1 ns/op").map
      (fun t => t.rows.map fun row => row.measures.procs.whole?) =
        .ok [some 9007199254740992, none] := by
  have page : "BenchmarkX-9007199254740993 1 1 ns/op\nBenchmarkX 1 1 ns/op" =
      pageText unevenPage := by decide +kernel
  rw [page, tableOf_pageText]
  decide +kernel

end Printed

end TestRoster
