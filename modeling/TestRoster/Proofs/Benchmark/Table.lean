import TestRoster.Benchmark.Bundled
import TestRoster.Benchmark.Store
import TestRoster.Proofs.Benchmark.Output

/-!
Which output of a run becomes a table.

Only a line can be at fault: by a count with too many digits, or by a number of a known unit that is
no proper numeral. What is told by lines without fault is put into a table.
-/
namespace TestRoster

/-- What is wrong with the output of a run: its first line at fault. -/
def OutputFault (output : String) (f : Failure) : Prop :=
  FirstFault BenchmarkResult.LineFault (breakLines output.toList) f

variable {frames : Frames} {output stamp : String} {t : ResultTable} {f : Failure}

namespace ResultTable

theorem ofOutput_eq_error_iff : ofOutput frames output = .error f ↔ OutputFault output f := by
  rw [OutputFault, ← BenchmarkResult.ofLines_eq_error_iff, ofOutput, BenchmarkResult.ofOutput]
  cases BenchmarkResult.ofLines (breakLines output.toList) with
  | error f' => simp [Except.map]
  | ok rs => simp [Except.map]

theorem ofOutput_eq_ok_iff : ofOutput frames output = .ok t ↔
    (∀ f, ¬ OutputFault output f) ∧
      ∃ rs, BenchmarkResult.Results (breakLines output.toList) rs ∧ t = frames.table rs := by
  constructor
  · intro read
    refine ⟨fun f fault => ?_, ?_⟩
    · rw [ofOutput_eq_error_iff.mpr fault] at read
      cases read
    · rw [ofOutput, BenchmarkResult.ofOutput] at read
      cases told : BenchmarkResult.ofLines (breakLines output.toList) with
      | error f =>
          rw [told] at read
          cases read
      | ok rs =>
          rw [told] at read
          cases read
          exact ⟨rs, BenchmarkResult.results_of_ofLines told, rfl⟩
  · rintro ⟨sound, rs, told, rfl⟩
    rw [ofOutput, BenchmarkResult.ofOutput,
      BenchmarkResult.ofLines_eq_ok_iff.mpr ⟨sound, told⟩]
    rfl

theorem exists_ofOutput_iff : (∃ t, ofOutput frames output = .ok t) ↔
    ∀ f, ¬ OutputFault output f := by
  cases read : ofOutput frames output with
  | error f =>
      refine iff_of_false (fun ⟨_, same⟩ => nomatch same) fun sound => sound f ?_
      exact ofOutput_eq_error_iff.mp read
  | ok t => exact iff_of_true ⟨t, rfl⟩ (ofOutput_eq_ok_iff.mp read).1

end ResultTable

theorem BenchmarkStore.exists_parseRun_iff :
    (∃ run, parseRun frames (stamp, .str output) = .ok run) ↔
      (∃ t, ResultTable.ofOutput frames output = .ok t) ∧ ∃ time, frames.time stamp = .ok time := by
  rw [parseRun]
  dsimp only
  cases ResultTable.ofOutput frames output with
  | error f =>
      refine iff_of_false ?_ ?_
      · rintro ⟨run, ⟨⟩⟩
      · rintro ⟨⟨t, ⟨⟩⟩, -⟩
  | ok t =>
      rw [and_iff_right ⟨t, rfl⟩]
      cases frames.time stamp with
      | error raised => exact iff_of_false (fun ⟨_, same⟩ => nomatch same) fun ⟨_, same⟩ =>
        nomatch same
      | ok time => exact iff_of_true ⟨_, rfl⟩ ⟨time, rfl⟩

/-- Output is read exactly where no line is at fault, and its table is then made of what its result
lines tell, in order; all else is passed over. Where a line is at fault, the first such fault is the
failure. A stored run can be shown exactly if its output is read and its time is. -/
theorem output_is_read_iff_no_fault (frames : Frames) (output : String) :
    ((∃ rs, BenchmarkResult.Results (breakLines output.toList) rs ∧
        ResultTable.ofOutput frames output = .ok (frames.table rs)) ↔
      ∀ f, ¬ OutputFault output f) ∧
    (∀ f, ResultTable.ofOutput frames output = .error f ↔ OutputFault output f) ∧
    ∀ stamp, (∃ run, BenchmarkStore.parseRun frames (stamp, .str output) = .ok run) ↔
      (∀ f, ¬ OutputFault output f) ∧ ∃ time, frames.time stamp = .ok time := by
  refine ⟨?_, fun f => ResultTable.ofOutput_eq_error_iff, fun stamp => ?_⟩
  · rw [← ResultTable.exists_ofOutput_iff]
    constructor
    · rintro ⟨rs, -, read⟩
      exact ⟨_, read⟩
    · rintro ⟨t, read⟩
      obtain ⟨-, rs, told, rfl⟩ := ResultTable.ofOutput_eq_ok_iff.mp read
      exact ⟨rs, told, read⟩
  · rw [BenchmarkStore.exists_parseRun_iff, ResultTable.exists_ofOutput_iff]

/-- A number with two points is written like a number, but is none. -/
theorem number_with_two_points_is_not_read :
    ResultTable.ofOutput .bundled "BenchmarkX 1 1.2.3 ns/op" = .error (.notAFloat "1.2.3") := by
  have parts : BenchmarkResult.parts? (trim "BenchmarkX 1 1.2.3 ns/op".toList) =
      some ("BenchmarkX".toList, [], ['1'], "1.2.3 ns/op".toList) := by decide
  have number : BenchmarkResult.measureAtEnd? "1.2.3".toList =
      some ("1.2.3".toList, { mantissa := "1.2.3".toList }) := rfl
  have metrics : BenchmarkResult.pairs (BenchmarkResult.words "1.2.3 ns/op".toList) =
      [(("1.2.3".toList, { mantissa := "1.2.3".toList }), "ns/op".toList)] := by
    change BenchmarkResult.pairs ["1.2.3".toList, "ns/op".toList] = _
    rw [BenchmarkResult.pairs, number, BenchmarkResult.pairs]
    simp
  have line : BenchmarkResult.ofLine "BenchmarkX 1 1.2.3 ns/op".toList =
      .error (.notAFloat "1.2.3") := by
    rw [BenchmarkResult.ofLine, parts]
    dsimp only
    rw [metrics]
    rfl
  have lines : breakLines "BenchmarkX 1 1.2.3 ns/op".toList =
    ["BenchmarkX 1 1.2.3 ns/op".toList] := by
    decide
  rw [ResultTable.ofOutput, BenchmarkResult.ofOutput, lines, BenchmarkResult.ofLines, line]
  rfl

end TestRoster
