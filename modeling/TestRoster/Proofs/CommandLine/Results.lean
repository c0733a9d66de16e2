import TestRoster.Proofs.Benchmark.Latest
import TestRoster.Proofs.CommandLine.Turn

/-!
The benchmark results of command lines.

A benchmark run that passed stores its output under its key and time, and no other command line
touches the store.
-/
namespace TestRoster

open FileSystem BenchmarkStore

def passedCommand (made : List (Start × Behaviour)) : Option (Start × Behaviour) :=
  made.find? fun m => m.1.manner == .streamed && (wasRead m && m.2.status == 0)

def joinedOutput (b : Behaviour) : String :=
  String.intercalate "\n" (outputLines b.output).1

def Act.pickBenchmark (verbose : Bool) (directory filter : String) : Act TestCase := do
  let tests ← discover (Path.ofString directory) .benchmarks { verbose := verbose } none
  selectTest tests "Select a benchmark" filter

namespace Turn

def picked? (t : Turn) (directory filter : String) : Option TestCase :=
  t.arguments?.bind fun g => t.loaded?.bind fun loaded =>
    ((Act.pickBenchmark g.verbose directory filter).run loaded.2).1.toOption

/-- What a benchmark run is stored under: the name of the benchmark, or the directory of all. -/
def key? (t : Turn) (directory : String) (all : Bool) (filter : String) : Option String :=
  if all then some (t.session.files.resolve (Path.ofString directory)).toString
  else (t.picked? directory filter).map TestCase.name

/-- The benchmark run of a turn, if it passed. -/
def result? (t : Turn) : Option BenchmarkRun :=
  match t.invocation? with
  | some (.bench directory all _ _ _ filter) =>
      (passedCommand t.made).bind fun m => (t.key? directory all filter).map fun key =>
        ⟨key, t.session.clock.stamp, joinedOutput m.2⟩
  | _ => none

end Turn

variable {p : Path} {store : Datum} {made : List (Start × Behaviour)} {s s' : Session}

/-- What benchmarks leave in the store: the output of the command that passed, under its key, if one
did; otherwise the files are as they were. -/
inductive Benched (p : Path) (store : Datum) (s : Session) (made : List (Start × Behaviour))
    (key : Option String) (s' : Session) : Prop
  | nothing (none : passedCommand made = none) (files : s'.files = s.files)
  | result (name : String) (m : Start × Behaviour) (store' : Datum) (named : key = some name)
      (passed : passedCommand made = some m)
      (inserted : Inserted ⟨name, s.clock.stamp, joinedOutput m.2⟩ store store')
      (stored : Stored p store' s'.files)

theorem Benched.after {key : Option String} {s'' : Session} (ran : Ran [] s s')
    (h : Benched p store s' made key s'') : Benched p store s made key s'' := by
  cases h with
  | nothing none files => exact .nothing none (files.trans ran.files)
  | result name m store' named passed inserted stored =>
      rw [ran.clock] at inserted
      exact .result name m store' named passed inserted stored

namespace Act

end Act

namespace Turn

variable {t : Turn} {settings : Settings} {results : List BenchmarkRun}

end Turn

section

variable {settings : Settings} {fs last : FileSystem} {turns : List Turn}

end

end TestRoster
