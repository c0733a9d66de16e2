import Mathlib.Data.Set.List
import TestRoster.Proofs.Benchmark.Recovered
import TestRoster.Proofs.Benchmark.Sequence
import TestRoster.Proofs.Benchmark.Stacked
import TestRoster.Proofs.Datum.Distinct

/-!
The summary of all runs of a key.

It has one row for each benchmark of the table, in the order of first appearance, with the number of
its times and the least and the greatest of them. A result without a time counts nowhere, and every
other one counts once.
-/
namespace TestRoster

open FileSystem BenchmarkStore Printed

def timesOf (rows : List StampedRow) (benchmark : String) : List Binary64 :=
  (rows.filter (·.row.benchmark == benchmark)).filterMap (·.row.measures.nsPerOp.number?)

def StampedRow.isTimed (benchmark : String) (r : StampedRow) : Bool :=
  r.row.benchmark == benchmark && r.row.measures.nsPerOp.number?.isSome

/-- A row of a summary tells of the rows of its benchmark. -/
structure SummaryRow.Sums (rows : List StampedRow) (r : SummaryRow) : Prop where
  runs : r.runs = rows.countP (StampedRow.isTimed r.benchmark)
  least : IsExtreme Binary64.lt (timesOf rows r.benchmark) r.least
  greatest : IsExtreme (fun x y => y.lt x) (timesOf rows r.benchmark) r.greatest

variable {rows : List StampedRow}

theorem length_timesOf (rows : List StampedRow) (benchmark : String) :
    (timesOf rows benchmark).length = rows.countP (StampedRow.isTimed benchmark) := by
  rw [timesOf, List.length_filterMap_eq_countP, List.countP_filter]
  refine List.countP_congr fun r _ => ?_
  rw [StampedRow.isTimed, Bool.and_comm]

theorem sum_indicators {α : Type} (p : α → Bool) (xs : List α) :
    (xs.map fun x => if p x then 1 else 0).sum = xs.countP p := by
  induction xs with
  | nil => rfl
  | cons x xs ih => rw [List.map_cons, List.sum_cons, ih, List.countP_cons, Nat.add_comm]

/-- Every row with a time counts for one name. -/
theorem sum_countP_names {names : List String} (once : names.Nodup)
    (all : ∀ r ∈ rows, r.row.benchmark ∈ names) :
    (names.map fun name => rows.countP (StampedRow.isTimed name)).sum =
      rows.countP fun r => r.row.measures.nsPerOp.number?.isSome := by
  induction rows with
  | nil => simp
  | cons r rows ih =>
      obtain ⟨here, later⟩ := List.forall_mem_cons.mp all
      have counted : (names.map fun name => if StampedRow.isTimed name r then 1 else 0).sum =
          if r.row.measures.nsPerOp.number?.isSome then 1 else 0 := by
        rw [sum_indicators fun name => StampedRow.isTimed name r]
        cases timed : r.row.measures.nsPerOp.number?.isSome with
        | false => simp [StampedRow.isTimed, timed]
        | true =>
            have single : names.countP (fun name => r.row.benchmark == name) = 1 := by
              rw [← List.count_eq_one_of_mem once here, List.count]
              exact List.countP_congr fun name _ => by rw [beq_iff_eq, beq_iff_eq, eq_comm]
            simpa [StampedRow.isTimed, timed] using single
      simp only [List.countP_cons]
      rw [List.sum_map_add, ih later, counted]

section Lawful

variable {frames : Frames} (lawful : frames.Lawful)
include lawful

theorem benchmarks_summary (t : RunTable) :
    (t.summary frames).rows.map SummaryRow.benchmark =
      (t.rows.map (·.row.benchmark)).eraseDups := by
  rw [RunTable.summary]
  split
  next nothing =>
    rw [List.isEmpty_iff.mp nothing]
    rfl
  next =>
    rw [← lawful.names, List.map_map]
    rfl

/-- Where all times are binary numbers, each row tells of the times of its benchmark. -/
theorem sums_summary {t : RunTable}
    (binary : ∀ r ∈ t.rows, ∃ x, r.row.measures.nsPerOp = .binary x) :
    ∀ r ∈ (t.summary frames).rows, r.Sums t.rows := by
  intro r member
  rw [RunTable.summary] at member
  split at member
  next => cases member
  next =>
    obtain ⟨⟨name, own⟩, group, rfl⟩ := List.mem_map.mp member
    have members := lawful.members t _ group
    dsimp only at members
    subst members
    have cells : (t.rows.filter (·.row.benchmark == name)).map (·.row.measures.nsPerOp) ∈
        Set.range (List.map Cell.binary) := by
      rw [Set.range_list_map]
      intro cell among
      obtain ⟨r, inside, rfl⟩ := List.mem_map.mp among
      obtain ⟨x, same⟩ := binary r (List.mem_filter.mp inside).1
      exact ⟨x, same.symm⟩
    obtain ⟨xs, same⟩ := cells
    have times : timesOf t.rows name = xs.filter fun x => !x.isNan := by
      rw [timesOf, ← Cell.numbers_binary, same, List.filterMap_map]
      rfl
    have tells := lawful.tally t.kinds.nsPerOp xs
    rw [same, ← times] at tells
    exact ⟨tells.runs.trans (length_timesOf t.rows name), tells.least, tells.greatest⟩

theorem sum_runs_summary {t : RunTable} (sums : ∀ r ∈ (t.summary frames).rows, r.Sums t.rows) :
    ((t.summary frames).rows.map (·.runs)).sum =
      t.rows.countP fun r => r.row.measures.nsPerOp.number?.isSome := by
  have each : (t.summary frames).rows.map (·.runs) =
      ((t.summary frames).rows.map SummaryRow.benchmark).map fun name =>
        t.rows.countP (StampedRow.isTimed name) := by
    rw [List.map_map]
    exact List.map_congr_left fun r member => (sums r member).runs
  rw [each, benchmarks_summary lawful]
  exact sum_countP_names (nodup_eraseDups _) fun r member =>
    List.mem_eraseDups.mpr (List.mem_map_of_mem member)

/-- The results with a time count once in the table of runs. -/
theorem countP_stacked {stored : List (String × Datum)} {read : List ReadRun}
    (reads : List.Forall₂ (ReadRun.Reads frames) stored read) :
    (ReadRun.stacked frames read).rows.countP (fun r => r.row.measures.nsPerOp.number?.isSome) =
      (read.flatMap ReadRun.results).countP fun r => r.nsPerOp.isSome := by
  have metrics := ReadRun.metrics_stacked lawful read .nsPerOp
  have counts := congrArg (List.countP fun cell => cell.number?.isSome) metrics
  rw [List.countP_map, List.countP_map] at counts
  refine counts.trans (List.countP_congr fun x member => ?_)
  obtain ⟨r, among, inside⟩ := List.mem_flatMap.mp member
  obtain ⟨run, reads⟩ := ReadRun.exists_reads reads among
  dsimp only [Function.comp_apply]
  rw [Cell.number?_getD_nan (reads.isNan x inside .nsPerOp)]
  rfl

end Lawful

/-- The table and the summary of a key lose no result and invent none. Where the outputs that are
listed for a key are sound, either some time among them cannot be read, or the table has the rows of
all outputs in order, each with the time of its run, and the summary has one row per benchmark, with
the number of its times and their extremes; so the numbers of times add up to the number of results
that have one. Only counts can change, in a column that the runs keep in different ways. -/
theorem stored_results_are_kept {p : Path} {key : String} {s : Session}
    {rs : List (String × Datum)} (lawful : s.library.frames.Lawful)
    (listed : (Act.storedRuns p key).run s = (.ok rs, s))
    (sound : ∀ run ∈ rs, ∃ output t, run.2 = .str output ∧
      ResultTable.ofOutput s.library.frames output = .ok t) :
    (∃ run ∈ rs, ∃ raised, s.library.frames.time run.1 = .error raised ∧
        (Act.storedTable p key).run s = (.error (.foreign raised), s)) ∨
      ∃ read t, List.Forall₂ (ReadRun.Reads s.library.frames) rs read ∧
        (Act.storedTable p key).run s = (.ok t, s) ∧
        List.Forall₂ (StampedRow.Restates (read.map (ReadRun.table s.library.frames)))
          (read.flatMap (ReadRun.rows s.library.frames)) t.rows ∧
        (t.summary s.library.frames).rows.map SummaryRow.benchmark =
          (t.rows.map (·.row.benchmark)).eraseDups ∧
        (∀ r ∈ (t.summary s.library.frames).rows, r.Sums t.rows) ∧
        ((t.summary s.library.frames).rows.map (·.runs)).sum =
          (read.flatMap ReadRun.results).countP fun r => r.nsPerOp.isSome := by
  rw [Act.storedTable_run listed]
  rcases ReadRun.reads_all_or_raised sound with
    ⟨read, reads, told⟩ | ⟨run, member, raised, unread, failed⟩
  · have binary : ∀ r ∈ (ReadRun.stacked s.library.frames read).rows, ∃ x,
        r.row.measures.nsPerOp = .binary x := by
      intro r member
      have among := List.mem_map_of_mem (f := fun r => r.row.measures.metric .nsPerOp) member
      rw [ReadRun.metrics_stacked lawful] at among
      obtain ⟨x, -, same⟩ := List.mem_map.mp among
      exact ⟨_, same.symm⟩
    have sums := sums_summary lawful binary
    refine .inr ⟨read, ReadRun.stacked s.library.frames read, reads, by rw [told]; rfl,
      ReadRun.restates_stacked lawful read, benchmarks_summary lawful _, sums, ?_⟩
    rw [sum_runs_summary lawful sums, countP_stacked lawful reads]
  · exact .inl ⟨run, member, raised, unread, by rw [failed]; rfl⟩

/-- Two runs of one key. In the second one a result is printed without its processors. -/
def mixedRuns : List BenchmarkRun :=
  [⟨"B", "2024-01-01T00:00:00+00:00", "BenchmarkX-9007199254740993 1 1 ns/op"⟩,
    ⟨"B", "2024-01-02T00:00:00+00:00", "BenchmarkX-1 1 1 ns/op\nBenchmarkX 1 1 ns/op"⟩]

def mixedRecordings : List Recording :=
  [⟨"B", "BenchmarkX-9007199254740993 1 1 ns/op",
      some { year := 2024, month := 1, day := 1, offset := some 0 }⟩,
    ⟨"B", "BenchmarkX-1 1 1 ns/op\nBenchmarkX 1 1 ns/op",
      some { year := 2024, month := 1, day := 2, offset := some 0 }⟩]

theorem library_recordEach (p : Path) (s : Session) (calls : List Recording) :
    (s.recordEach p calls).2.library = s.library := by
  induction calls generalizing s with
  | nil => rfl
  | cons c later ih =>
      rw [Session.recordEach]
      exact (ih _).trans (Act.progress_recordRun p c.key c.output c.moment s).library

theorem mixed_recordings_are_listed :
    let p := Path.ofString "b/results.json"
    let last := (emptySession.recordEach p mixedRecordings).2
    (Act.storedRuns p "B").run last =
      (.ok (mixedRuns.map fun r => (r.stamp, .str r.output)), last) := by
  intro p last
  have absent : emptySession.files.exists' p = false := by decide +kernel
  have writable : emptySession.files.Writable p := by decide +kernel
  have writable' : emptySession.files.Writable (draft p) := by decide +kernel
  have recorded : recordedRuns emptySession.clock mixedRecordings = mixedRuns := by decide +kernel
  have succeeded := (recordEach_cases absent mixedRecordings).resolve_left fun ⟨_, unready, _⟩ =>
    unready ⟨ready_of_writable writable, ready_of_writable writable'⟩
  have answers := succeeded mixedRecordings [] (List.append_nil _).symm
  obtain ⟨rs, runs, order, members⟩ := (recordEach_showsRuns absent answers).runs "B"
  have listed : rs = mixedRuns.map fun r => (r.stamp, .str r.output) := by
    refine eq_of_sorted_by_name order (by decide +kernel) fun ⟨stamp, d⟩ => ?_
    rw [members, recorded, mixedRuns, ← List.singleton_append, latest_append, ← List.nil_append [_],
      latest_append]
    by_cases late : stamp = "2024-01-02T00:00:00+00:00"
    · simp [late, eq_comm]
    · by_cases early : stamp = "2024-01-01T00:00:00+00:00"
      · simp [early, eq_comm]
      · simp [late, early, latest]
  exact listed ▸ runs

theorem mixed_first_page : "BenchmarkX-9007199254740993 1 1 ns/op" =
    pageText
      [.result
        (plainResult (some { digits := "9007199254740993".toList }) { digits := ['1'] })] := by
  decide +kernel

theorem mixed_second_page : "BenchmarkX-1 1 1 ns/op\nBenchmarkX 1 1 ns/op" =
    pageText [.result (plainResult (some { digits := ['1'] }) { digits := ['1'] }),
      .result (plainResult none { digits := ['1'] })] := by
  decide +kernel

theorem mixed_runs_are_sound :
    ∀ run ∈ mixedRuns, ∃ t, ResultTable.ofOutput .bundled run.output = .ok t := by
  have told (t : Except Failure ResultTable) (is : t.toOption.isSome = true) :
    ∃ t', t = .ok t' := by
    cases t with
    | error f => cases is
    | ok t => exact ⟨t, rfl⟩
  rw [mixedRuns, mixed_first_page, mixed_second_page]
  refine List.forall_mem_cons.mpr ⟨?_, List.forall_mem_singleton.mpr ?_⟩
  · exact told _ (by rw [tableOf_pageText]; decide +kernel)
  · exact told _ (by rw [tableOf_pageText]; decide +kernel)

theorem mixed_runs_are_kept :
    let p := Path.ofString "b/results.json"
    let last := (emptySession.recordEach p mixedRecordings).2
    let rs := mixedRuns.map fun r => (r.stamp, Datum.str r.output)
    Frames.bundled.Lawful ∧ (Act.storedRuns p "B").run last = (.ok rs, last) ∧
      (∀ run ∈ rs, ∃ output t, run.2 = .str output ∧
        ResultTable.ofOutput .bundled output = .ok t) ∧
      ∃ read t, List.Forall₂ (ReadRun.Reads .bundled) rs read ∧
        (Act.storedTable p "B").run last = (.ok t, last) ∧
        List.Forall₂ (StampedRow.Restates (read.map (ReadRun.table .bundled)))
          (read.flatMap (ReadRun.rows .bundled)) t.rows ∧
        ((t.summary .bundled).rows.map (·.runs)).sum =
          (read.flatMap ReadRun.results).countP fun r => r.nsPerOp.isSome := by
  intro p last rs
  have bundled : last.library.frames = .bundled := by
    rw [library_recordEach]
    rfl
  have listed : (Act.storedRuns p "B").run last = (.ok rs, last) := mixed_recordings_are_listed
  have sound : ∀ run ∈ rs, ∃ output t, run.2 = .str output ∧
      ResultTable.ofOutput .bundled output = .ok t := by
    intro run member
    obtain ⟨r, among, rfl⟩ := List.mem_map.mp member
    obtain ⟨t, made⟩ := mixed_runs_are_sound r among
    exact ⟨r.output, t, rfl, made⟩
  have timed : ∀ run ∈ rs, (Frames.bundled.time run.1).toBool = true := by decide +kernel
  refine ⟨Frames.lawful_bundled, listed, sound, ?_⟩
  obtain ⟨run, member, raised, unread, -⟩ | ⟨read, t, reads, table, rows, -, -, sum⟩ :=
    stored_results_are_kept (bundled ▸ Frames.lawful_bundled) listed (bundled ▸ sound)
  · have time := timed run member
    rw [← bundled, unread] at time
    cases time
  · rw [bundled] at reads rows sum
    exact ⟨read, t, reads, table, rows, sum⟩

/-- A count that the output of its run tells is rounded in the table of all runs. -/
theorem stacked_count_is_rounded :
    let p := Path.ofString "b/results.json"
    let last := (emptySession.recordEach p mixedRecordings).2
    ((ResultTable.ofOutput .bundled "BenchmarkX-9007199254740993 1 1 ns/op").map fun t =>
        t.rows.map fun row => row.measures.procs.whole?) = .ok [some 9007199254740993] ∧
      (((Act.storedTable p "B").run last).1.map fun t =>
        t.rows.map fun r => r.row.measures.procs.whole?) =
          .ok [some 9007199254740992, some 1, none] := by
  intro p last
  constructor
  · rw [mixed_first_page, tableOf_pageText]
    decide +kernel
  · have bundled : last.library.frames = .bundled := by
      rw [library_recordEach]
      rfl
    rw [Act.storedTable_run mixed_recordings_are_listed, bundled]
    simp only [mixedRuns, List.map_cons, List.map_nil, List.mapM_cons, List.mapM_nil, parseRun]
    rw [mixed_first_page, mixed_second_page, tableOf_pageText, tableOf_pageText]
    decide +kernel

end TestRoster
