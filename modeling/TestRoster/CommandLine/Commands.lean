import TestRoster.Benchmark.Store
import TestRoster.CommandLine.Choice
import TestRoster.Discovery.Directory
import TestRoster.Roster.Document
import TestRoster.Roster.Tree
import TestRoster.Run.History
import TestRoster.Settings.File

/-!
The commands: listing tests, running them, running benchmarks, and looking back at what was run.

A command tells whether what it ran passed. Runs are kept in the history, and the output of
benchmarks that passed in the store.
-/
namespace TestRoster

def historyPage : Nat := 20

namespace Act

/-- The tests below a directory. Files that were skipped are told. -/
def discover (directory : Path) (mode : Mode) (cfg : Config) (workers : Option Int) :
    Act (List TestCase) := do
  let s ← get
  let (reports, log) :=
    s.files.discover s.library.parse cfg mode directory.toString workers s.finish
  recordAll log
  reports.forM fun r =>
    match r.reason with
    | some reason => echo ("Skipped " ++ r.path ++ ": " ++ reason)
    | none => pure ()
  return reports.flatMap FileReport.tests

def listTests (directory : Path) (mode : Mode) (cfg : Config) (format : ListFormat)
    (workers : Option Int) : Act Bool := do
  let tests ← discover directory mode cfg workers
  match format, tests with
  | .json, tests =>
      let items := tests.map fun t => RosterItem.test t.saved
      match Roster.toJson items (Json.Layout.indented 2) with
      | .ok text => echo text
      | .error _ => pure ()
  | _, [] => echo ("No " ++ mode.word ++ " found in the directory")
  | .tree, tests => echo (drawTree tests)
  | .text, tests => echo (drawList tests true)
  return true

def remember (settings : Settings) (c : Command) (passed : Bool) : Act Unit := do
  appendEntry settings.historyFile (← historyEntry c passed)

def runDebugger (settings : Settings) (test : TestCase) : Act Bool := do
  let outcome ← debugTest test none
  remember settings outcome.command outcome.passed
  return outcome.passed

def runTests (settings : Settings) (test : Option TestCase) (directory : Path)
    (options : RunOptions) : Act Bool := do
  let c ← testCommand test directory.toString none options none
  let outcome ← execute c settings.colorizeOutput
  remember settings c outcome.passed
  showReports c
  return outcome.passed

def runBenchmarks (settings : Settings) (test : Option TestCase) (directory : Path)
    (options : RunOptions) : Act Bool := do
  let c ← benchmarkCommand test directory.toString none options none
  let outcome ← execute c settings.colorizeOutput
  if outcome.passed then
    let files := (← get).files
    let key := match test with
      | some t => t.name
      | none => (files.resolve directory).toString
    discard <| recordRun settings.benchmarkStore key (String.intercalate "\n" outcome.output) none
  showReports c
  return outcome.passed

/-- Runs the latest command of the history again. -/
def rerunLast (settings : Settings) : Act Bool := do
  let entry ← lastEntry settings.historyFile
  return (← rerun entry settings.colorizeOutput).passed

/-- Shows the latest entries of the history, and runs a picked one again unless they are only to be
listed. -/
def browseHistory (settings : Settings) (listOnly : Bool) : Act Bool := do
  let all ← loadEntries settings.historyFile
  let entries := all.drop (all.length - historyPage)
  if entries.isEmpty then
    echo "No commands in history"
    return true
  (entries.zipIdx 1).forM fun (entry, n) => do
    echo (numberLabel n ++ "  " ++ (← lift .misuse entry.text))
  if listOnly then return true
  let entry := entries.get (← ask "Select a command" entries.length)
  return (← rerun entry settings.colorizeOutput).passed

/-- Shows the results that are stored under a key; the user picks one if none is given. -/
def showResults (settings : Settings) (key : Option String) (raw : Bool) : Act Bool := do
  let p := settings.benchmarkStore
  let keys := (← lift .misuse (BenchmarkStore.keys (← readStore p))).map Datum.text
  if keys.isEmpty then
    echo "No benchmarks found"
    return true
  let key ← match key with
    | some key => pure key
    | none => pick "Select a benchmark to view" keys id
  if !keys.contains key then throw (.noRuns key)
  let table ← storedTable p key
  let frames := (← get).library.frames
  echo (if raw then frames.runText table else frames.summaryText (table.summary frames))
  return true

def carryOut (settings : Settings) (verbose : Bool) : Invocation → Act Bool
  | .list directory benchmarks strict format workers =>
      listTests (Path.ofString directory) (if benchmarks then .benchmarks else .tests)
        { verbose := verbose, strict := strict } format workers
  | .run directory select debug quiet cover cpu mem filter => do
      let directory := Path.ofString directory
      let options : RunOptions :=
        { quiet := quiet, cover := cover, cpuProfile := cpu, memProfile := mem }
      if select || debug || filter != "" then
        let tests ← discover directory .tests { verbose := verbose } none
        if tests.isEmpty then
          echo "No tests found in the directory"
          return true
        let test ← selectTest tests "Select a test" filter
        if debug then runDebugger settings test
        else runTests settings (some test) directory options
      else runTests settings none directory options
  | .bench directory all benchMem cpu mem filter => do
      let directory := Path.ofString directory
      let options : RunOptions := { benchMem := benchMem, cpuProfile := cpu, memProfile := mem }
      if all then runBenchmarks settings none directory options
      else
        let tests ← discover directory .benchmarks { verbose := verbose } none
        if tests.isEmpty then
          echo "No benchmarks found in the directory"
          return true
        let test ← selectTest tests "Select a benchmark" filter
        runBenchmarks settings (some test) directory options
  | .rerun => rerunLast settings
  | .history listOnly => browseHistory settings listOnly
  | .results key raw => showResults settings key raw

def settingsOf (g : GlobalArguments) : Act Settings := do
  if g.verbose then record .debug "Debug logging enabled"
  loadSettings (g.config.map Path.ofString)

/-- Reads the settings and carries out the command of a command line, unless that ends before. -/
def carryOutWords (words : List String) : Act (Except UsageEnd Bool) := do
  let s ← get
  match s.library.terminal.arguments s.files words with
  | .error ended => return .error ended
  | .ok g =>
      let settings ← settingsOf g
      let s ← get
      match s.library.terminal.invocation s.files g with
      | .error ended => return .error ended
      | .ok invocation => return .ok (← carryOut settings g.verbose invocation)

end Act

/-- What a command line leaves on the terminal, and its exit status. The program may end with an
exception, which is told apart. -/
structure Report where
  status : Nat
  output : String
  raised : Option Raised := none
  deriving DecidableEq, Repr

/-- The output and the exit status of a finished action: a failure that is the user's business is
told after everything else, and so is that the user gave up. All other failures are exceptions. -/
def Report.ofRun (shown : List Shown) : Except Failure (Except UsageEnd Bool) → Report
  | .ok (.ok passed) => { status := if passed then 0 else 1, output := shownText shown }
  | .ok (.error ended) => { status := ended.status, output := shownText shown ++ ended.text }
  | .error (.aborted prompt) =>
      { status := 1, output := shownText (shown ++ [.line "Aborted!"]) ++ prompt }
  | .error failure =>
      if failure.isReported then
        { status := 1, output := shownText (shown ++ [.line ("Error: " ++ failure.message)]) }
      else { status := 1, output := shownText shown, raised := some failure.raised }

def Session.carryOut (s : Session) (words : List String) :
    Except Failure (Except UsageEnd Bool) × Session :=
  (Act.carryOutWords words).run s

/-- The report on a command line, and the session that it leaves. -/
def Session.runWords (s : Session) (words : List String) : Report × Session :=
  let (result, after) := s.carryOut words
  (Report.ofRun after.shown result, after)

end TestRoster
