import Mathlib.Data.List.Forall2
import TestRoster.Proofs.Benchmark.Frames
import TestRoster.Proofs.Benchmark.Recording
import TestRoster.Proofs.Benchmark.Table

/-!
The rows of all runs of a key.

They are the rows of the runs in the order of the runs, each with the time of its own run. Names and
metrics stay as they are in the run, and so do counts, unless the column is kept as binary numbers
because the runs keep it in different ways.
-/
namespace TestRoster

/-- A stored run as it is read: its time, and what its result lines tell. -/
structure ReadRun where
  runAt : Timestamp
  results : List BenchmarkResult

namespace ReadRun

def table (frames : Frames) (r : ReadRun) : RunTable :=
  frames.stamp r.runAt (frames.table r.results)

/-- The rows of the table of a run, each with the time of the run. -/
def rows (frames : Frames) (r : ReadRun) : List StampedRow :=
  (frames.table r.results).rows.map fun row => ⟨r.runAt, row⟩

/-- That a stored run is read. -/
structure Reads (frames : Frames) (stored : String × Datum) (r : ReadRun) : Prop where
  time : frames.time stored.1 = .ok r.runAt
  output : ∃ output, stored.2 = .str output ∧
    ResultTable.ofOutput frames output = .ok (frames.table r.results) ∧
    BenchmarkResult.Results (breakLines output.toList) r.results

end ReadRun

/-- A row of one of some tables, of which only counts change among the rows of all of them. -/
structure StampedRow.Restates (tables : List RunTable) (r r' : StampedRow) : Prop where
  runAt : r'.runAt = r.runAt
  benchmark : r'.row.benchmark = r.row.benchmark
  procs : r.row.measures.procs.Restates (Mixes (tables.map (·.kinds.procs))) r'.row.measures.procs
  iterations : r.row.measures.iterations.Restates (Mixes (tables.map (·.kinds.iterations)))
    r'.row.measures.iterations
  metric : ∀ unit, r'.row.measures.metric unit = r.row.measures.metric unit

namespace BenchmarkResult

variable {metrics : List Metric} {unit : MetricUnit} {x : Binary64}

theorem isNan_of_value? {n : Measure} (told : n.value? = some x) : x.isNan = false := by
  rw [Measure.value?] at told
  dsimp only at told
  split at told
  next => cases told
  next =>
    cases told
    exact Binary64.isNan_ofDecimal _ _ _

theorem isNan_of_lastOf (last : lastOf metrics unit = some x) : x.isNan = false := by
  obtain ⟨m, -, found⟩ := List.exists_of_findSome?_eq_some last
  split at found
  next => exact isNan_of_value? found
  next => cases found

theorem isNan_of_lineResult {line : List Char} {r : BenchmarkResult} (told : LineResult line r)
    (given : r.metric unit = some x) : x.isNan = false := by
  obtain ⟨name, procs, iterations, rest, metrics, -, -⟩ := told
  cases unit <;> exact isNan_of_lastOf ((Option.or_none).symm.trans given)

theorem isNan_of_results {lines : List (List Char)} {rs : List BenchmarkResult}
    (told : Results lines rs) : ∀ r ∈ rs, ∀ unit, ∀ x ∈ r.metric unit, x.isNan = false := by
  induction told with
  | none => simp
  | result line r lines rs told _ ih =>
      exact List.forall_mem_cons.mpr ⟨fun unit x given => isNan_of_lineResult told given, ih⟩
  | other _ _ _ _ _ ih => exact ih

end BenchmarkResult

namespace ReadRun

variable {frames : Frames} {stored : String × Datum} {r : ReadRun} {rs : List (String × Datum)}
  {read : List ReadRun}

theorem Reads.parseRun (reads : Reads frames stored r) :
    BenchmarkStore.parseRun frames stored = .ok (r.table frames) := by
  obtain ⟨output, same, made, -⟩ := reads.output
  rw [BenchmarkStore.parseRun, same]
  dsimp only
  rw [made, reads.time]
  rfl

theorem Reads.isNan (reads : Reads frames stored r) :
    ∀ x ∈ r.results, ∀ unit, ∀ y ∈ x.metric unit, y.isNan = false := by
  obtain ⟨output, -, -, told⟩ := reads.output
  exact BenchmarkResult.isNan_of_results told

/-- A run with sound output is read exactly if its time is. -/
theorem reads_or_raised {output : String} {t : ResultTable} (same : stored.2 = .str output)
    (made : ResultTable.ofOutput frames output = .ok t) :
    (∃ r, Reads frames stored r) ∨ ∃ raised, frames.time stored.1 = .error raised ∧
      BenchmarkStore.parseRun frames stored = .error (.foreign raised) := by
  cases time : frames.time stored.1 with
  | ok moment =>
      obtain ⟨-, results, told, rfl⟩ := ResultTable.ofOutput_eq_ok_iff.mp made
      exact .inl ⟨⟨moment, results⟩, time, output, same, made, told⟩
  | error raised =>
      refine .inr ⟨raised, rfl, ?_⟩
      rw [BenchmarkStore.parseRun, same]
      dsimp only
      rw [made, time]
      rfl

/-- The runs are read one after the other, and the first time that cannot be read ends it. -/
theorem reads_all_or_raised (sound : ∀ run ∈ rs, ∃ output t, run.2 = .str output ∧
    ResultTable.ofOutput frames output = .ok t) :
    (∃ read, List.Forall₂ (Reads frames) rs read ∧
        rs.mapM (BenchmarkStore.parseRun frames) = .ok (read.map (table frames))) ∨
      ∃ run ∈ rs, ∃ raised, frames.time run.1 = .error raised ∧
        rs.mapM (BenchmarkStore.parseRun frames) = .error (.foreign raised) := by
  induction rs with
  | nil => exact .inl ⟨[], .nil, rfl⟩
  | cons run rs ih =>
      obtain ⟨⟨output, t, same, made⟩, later⟩ := List.forall_mem_cons.mp sound
      rcases reads_or_raised same made with ⟨r, reads⟩ | ⟨raised, unread, failed⟩
      · rcases ih later with ⟨read, each, told⟩ | ⟨other, member, raised, unread, failed⟩
        · refine .inl ⟨r :: read, .cons reads each, ?_⟩
          rw [List.mapM_cons, reads.parseRun, told]
          rfl
        · refine .inr ⟨other, List.mem_cons_of_mem _ member, raised, unread, ?_⟩
          rw [List.mapM_cons, reads.parseRun, failed]
          rfl
      · refine .inr ⟨run, List.mem_cons_self, raised, unread, ?_⟩
        rw [List.mapM_cons, failed]
        rfl

theorem exists_reads (reads : List.Forall₂ (Reads frames) rs read) (member : r ∈ read) :
    ∃ run, Reads frames run r := by
  induction reads with
  | nil => cases member
  | cons here _ ih =>
      rcases List.mem_cons.mp member with rfl | later
      · exact ⟨_, here⟩
      · exact ih later

def stacked (frames : Frames) (read : List ReadRun) : RunTable :=
  RunTable.ofRuns frames (read.map (table frames))

section Lawful

variable (lawful : frames.Lawful)
include lawful

/-- The metrics in the rows of runs are those of the results. -/
theorem metrics_rows (read : List ReadRun) (unit : MetricUnit) :
    (read.flatMap (rows frames)).map (fun r => r.row.measures.metric unit) =
      (read.flatMap results).map fun x => .binary ((x.metric unit).getD .nan) := by
  rw [List.map_flatMap, List.map_flatMap]
  refine List.flatMap_congr fun r _ => ?_
  have tabled := lawful.table r.results
  rw [rows, List.map_map, eq_comm, ← List.forall₂_eq_eq_eq, List.forall₂_map_left_iff,
    List.forall₂_map_right_iff]
  exact tabled.imp fun x row tabled => (tabled.metric unit).symm

/-- The rows of all runs are the rows of the runs, one after the other. -/
theorem restates_stacked (read : List ReadRun) :
    List.Forall₂ (StampedRow.Restates (read.map (table frames))) (read.flatMap (rows frames))
      (stacked frames read).rows := by
  have parts : read.flatMap (rows frames) = (read.map (table frames)).flatMap RunTable.rows := by
    rw [List.flatMap_map]
    exact List.flatMap_congr fun r _ => (lawful.stamp r.runAt _).2.symm
  have rowwise : List.Forall₂ (StampedRow.Stacked (read.map (table frames)))
      (read.flatMap (rows frames)) (stacked frames read).rows := by
    rw [parts, stacked]
    cases read with
    | nil => exact .nil
    | cons r read => exact lawful.stack _ (List.cons_ne_nil _ _)
  have binary : ∀ r ∈ read.flatMap (rows frames), ∀ unit, ∃ x,
      r.row.measures.metric unit = .binary x := by
    intro r member unit
    have among := List.mem_map_of_mem (f := fun r => r.row.measures.metric unit) member
    rw [metrics_rows lawful] at among
    obtain ⟨x, -, same⟩ := List.mem_map.mp among
    exact ⟨_, same.symm⟩
  refine ((List.forall₂_and_left _ _).mpr ⟨binary, rowwise⟩).imp fun r r' ⟨binary, stacked⟩ => ?_
  refine ⟨stacked.runAt, stacked.benchmark, stacked.procs, stacked.iterations, fun unit => ?_⟩
  obtain ⟨x, same⟩ := binary unit
  have kept := stacked.metric unit
  rw [same] at kept ⊢
  exact kept.of_binary

/-- The metrics in the rows of all runs are those of the results. -/
theorem metrics_stacked (read : List ReadRun) (unit : MetricUnit) :
    (stacked frames read).rows.map (fun r => r.row.measures.metric unit) =
      (read.flatMap results).map fun x => .binary ((x.metric unit).getD .nan) := by
  rw [← metrics_rows lawful, eq_comm, ← List.forall₂_eq_eq_eq, List.forall₂_map_left_iff,
    List.forall₂_map_right_iff]
  exact (restates_stacked lawful read).imp fun r r' restates => (restates.metric unit).symm

end Lawful

end ReadRun

theorem BenchmarkStore.table_eq {frames : Frames} {store : Datum} {key : String}
    {rs : List (String × Datum)} (listed : runs store key = .ok rs) :
    table frames store key = (rs.mapM (parseRun frames)).map (RunTable.ofRuns frames) := by
  rw [table, listed]
  change (do return RunTable.ofRuns frames (← rs.mapM (parseRun frames))) = _
  cases rs.mapM (parseRun frames) <;> rfl

namespace Act

variable {p : Path} {key : String} {s : Session} {rs : List (String × Datum)}

/-- The runs that are listed are those that are read for the table. -/
theorem storedTable_run (listed : (storedRuns p key).run s = (.ok rs, s)) :
    (storedTable p key).run s =
      ((rs.mapM (BenchmarkStore.parseRun s.library.frames)).map
        (RunTable.ofRuns s.library.frames), s) := by
  rw [storedRuns, run_bind, readStore_eq] at listed
  rw [storedTable, run_bind_ok (run_get s), run_bind, readStore_eq]
  cases read : loaded p s.files with
  | error f =>
      rw [read] at listed
      cases listed
  | ok store =>
      rw [read] at listed
      dsimp only at listed ⊢
      rw [run_lift] at listed ⊢
      cases runs : BenchmarkStore.runs store key with
      | error f =>
          rw [runs] at listed
          cases listed
      | ok rs' =>
          rw [runs] at listed
          cases listed
          rw [BenchmarkStore.table_eq runs]
          cases rs.mapM (BenchmarkStore.parseRun s.library.frames) <;> rfl

end Act

end TestRoster
