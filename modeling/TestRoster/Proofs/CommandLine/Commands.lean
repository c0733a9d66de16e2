import TestRoster.CommandLine.Commands
import TestRoster.Proofs.Benchmark.Recording

/-!
What each command writes.

Running tests writes the history, running benchmarks writes the store and the draft beside it, and
the other commands write nothing.
-/
namespace TestRoster

def Invocation.written (settings : Settings) : Invocation → List Path
  | .run .. => [settings.historyFile]
  | .bench .. => [settings.benchmarkStore, BenchmarkStore.draft settings.benchmarkStore]
  | .list .. | .rerun | .history _ | .results .. => []

namespace Act

theorem quiet_ask (label : String) (choices : Nat) : Quiet (ask label choices) := by
  refine Keeps.bind_get fun s => ?_
  dsimp only
  rw [run_bind_ok (run_set s _)]
  split
  · exact ran_of_same rfl rfl rfl rfl rfl rfl rfl rfl
  · exact ran_of_same rfl rfl rfl rfl rfl rfl rfl rfl

theorem quiet_echoNumbered (lines : List String) : Quiet (echoNumbered lines) :=
  keeps_forM (fun _ => quiet_echo _) _

theorem quiet_pick {α : Type} (label : String) (choices : List α) (describe : α → String) :
    Quiet (pick label choices describe) :=
  (quiet_echoNumbered _).bind fun _ => (quiet_ask _ _).bind fun _ => keeps_pure _

theorem quiet_selectTest (tests : List TestCase) (label filter : String) :
    Quiet (selectTest tests label filter) := by
  unfold selectTest
  split
  · exact keeps_throw _
  · exact keeps_pure _
  · exact quiet_pick _ _ _

theorem quiet_discover (directory : Path) (mode : Mode) (cfg : Config) (workers : Option Int) :
    Quiet (discover directory mode cfg workers) := by
  refine keeps_get.bind fun s => (quiet_recordAll _).bind fun _ =>
    (keeps_forM (fun r => ?_) _).bind fun _ => keeps_pure _
  split
  · exact quiet_echo _
  · exact keeps_pure _

theorem quiet_listTests (directory : Path) (mode : Mode) (cfg : Config) (format : ListFormat)
    (workers : Option Int) : Quiet (listTests directory mode cfg format workers) := by
  have told : ∀ line, Quiet (echo line >>= fun _ => pure true) :=
    fun line => (quiet_echo line).bind fun _ => keeps_pure true
  refine (quiet_discover _ _ _ _).bind fun tests => ?_
  split
  · dsimp only
    split
    · exact told _
    · exact keeps_pure true
  all_goals exact told _

theorem quiet_storedTable (p : Path) (key : String) : Quiet (storedTable p key) :=
  keeps_get.bind fun _ => (quiet_readStore p).bind fun _ => keeps_lift _ _

theorem quiet_showResults (settings : Settings) (key : Option String) (raw : Bool) :
    Quiet (showResults settings key raw) := by
  have shown : ∀ key, Quiet (do
      let table ← storedTable settings.benchmarkStore key
      let frames := (← get).library.frames
      echo (if raw then frames.runText table else frames.summaryText (table.summary frames))
      return true) :=
    fun key => (quiet_storedTable _ key).bind fun _ => keeps_get.bind fun _ =>
      (quiet_echo _).bind fun _ => keeps_pure true
  refine (quiet_readStore _).bind fun _ => (keeps_lift _ _).bind fun _ =>
    keeps_ite ((quiet_echo _).bind fun _ => keeps_pure true) ?_
  cases key with
  | some key =>
      exact (keeps_pure key).bind fun key =>
        keeps_ite ((keeps_throw _).bind fun _ => shown key) (shown key)
  | none =>
      exact (quiet_pick _ _ _).bind fun key =>
        keeps_ite ((keeps_throw _).bind fun _ => shown key) (shown key)

variable {ps : List Path}

theorem writes_remember (settings : Settings) (c : Command) (passed : Bool) :
    Keeps (Writes [settings.historyFile]) (remember settings c passed) :=
  Keeps.bind (fun _ => writes_of_files rfl) fun _ => writes_appendEntry _ _

theorem writes_runDebugger (settings : Settings) (test : TestCase) :
    Keeps (Writes [settings.historyFile]) (runDebugger settings test) :=
  (writes_debugTest test none).bind fun _ => (writes_remember _ _ _).bind fun _ => keeps_pure _

theorem writes_runTests (settings : Settings) (test : Option TestCase) (directory : Path)
    (options : RunOptions) :
    Keeps (Writes [settings.historyFile]) (runTests settings test directory options) :=
  (quiet_testCommand _ _ _ _ _).writes.bind fun _ => (writes_execute _ _).bind fun _ =>
    (writes_remember _ _ _).bind fun _ => (writes_showReports _).bind fun _ => keeps_pure _

theorem writes_runBenchmarks (settings : Settings) (test : Option TestCase) (directory : Path)
    (options : RunOptions) :
    Keeps (Writes [settings.benchmarkStore, BenchmarkStore.draft settings.benchmarkStore])
      (runBenchmarks settings test directory options) := by
  refine (quiet_benchmarkCommand _ _ _ _ _).writes.bind fun c =>
    (writes_execute _ _).bind fun outcome => ?_
  have later :
    Keeps (Writes [settings.benchmarkStore, BenchmarkStore.draft settings.benchmarkStore])
      (showReports c >>= fun _ => pure outcome.passed) :=
    (writes_showReports c).bind fun _ => keeps_pure _
  exact keeps_ite (keeps_get.bind fun _ => (writes_recordRun _ _ _ _).discard.bind fun _ =>
    later) later

theorem writes_rerunLast (settings : Settings) : Keeps (Writes ps) (rerunLast settings) :=
  (quiet_lastEntry _).writes.bind fun _ => (writes_rerun _ _).bind fun _ => keeps_pure _

theorem writes_browseHistory (settings : Settings) (listOnly : Bool) :
    Keeps (Writes ps) (browseHistory settings listOnly) := by
  refine (quiet_loadEntries _).writes.bind fun all => keeps_ite ?_ (Keeps.bind ?_ fun _ => ?_)
  · exact (quiet_echo _).writes.bind fun _ => keeps_pure true
  · exact keeps_forM (fun _ => (keeps_lift _ _).bind fun _ => (quiet_echo _).writes) _
  · exact keeps_ite (keeps_pure true) ((quiet_ask _ _).writes.bind fun _ =>
      (writes_rerun _ _).bind fun _ => keeps_pure _)

/-- A command writes its own files only. -/
theorem writes_carryOut (settings : Settings) (verbose : Bool) (invocation : Invocation) :
    Keeps (Writes (invocation.written settings)) (carryOut settings verbose invocation) := by
  have selected : ∀ {ps directory mode label filter line} {f : TestCase → Act Bool},
      (∀ test, Keeps (Writes ps) (f test)) →
      Keeps (Writes ps) (do
        let tests ← discover directory mode { verbose := verbose } none
        if tests.isEmpty then
          echo line
          return true
        let test ← selectTest tests label filter
        f test) :=
    fun h => (quiet_discover _ _ _ _).writes.bind fun _ =>
      keeps_ite ((quiet_echo _).writes.bind fun _ => keeps_pure true)
        ((quiet_selectTest _ _ _).writes.bind h)
  cases invocation with
  | list directory benchmarks strict format workers => exact (quiet_listTests _ _ _ _ _).writes
  | run directory select debug quiet cover cpu mem filter =>
      refine keeps_ite (selected fun test => keeps_ite ?_ ?_) (writes_runTests _ _ _ _)
      · exact writes_runDebugger settings test
      · exact writes_runTests _ _ _ _
  | bench directory all benchMem cpu mem filter =>
      exact keeps_ite (writes_runBenchmarks _ _ _ _) (selected fun test =>
        writes_runBenchmarks _ _ _ _)
  | rerun => exact writes_rerunLast settings
  | history listOnly => exact writes_browseHistory settings listOnly
  | results key raw => exact (quiet_showResults settings key raw).writes

end Act

end TestRoster
