import TestRoster.Benchmark.Table
import TestRoster.Datum.Order
import TestRoster.Datum.Writer
import TestRoster.Run.Session

/-!
The store of benchmark runs: a document with the output of every run, by key and time.

The document is read as it is and used as if it were a dictionary of dictionaries. Recording writes
a new file beside the store and moves it into place, so a store is never half written.
-/
namespace TestRoster

namespace BenchmarkStore

/-- The value of a store that was never written. -/
def empty : Datum := .dict []

def setItem (d : Datum) (name : String) (value : Datum) : Except Misuse Datum :=
  match d with
  | .dict fields => .ok (.dict (setNamed name value fields))
  | .list _ => .error .listByName
  | d => .error (.notAssignable d.typeName)

def insert (store : Datum) (key stamp output : String) : Except Misuse Datum :=
  match store with
  | .dict fields => do
      let runs ← setItem ((Datum.field? fields key).getD (.dict [])) stamp (.str output)
      return .dict (setNamed key runs fields)
  | d => .error (.noMember d.typeName "setdefault")

def keys (store : Datum) : Except Misuse (List Datum) := do
  match store with
  | .dict fields => return (fields.mergeSort fun a b => decide (a.1 ≤ b.1)).map fun f => .str f.1
  | d => Datum.sorted (← d.parts)

/-- The runs of a key with their times, in the order of the written times. -/
def runs (store : Datum) (key : String) : Except Misuse (List (String × Datum)) := do
  match ← store.itemD key (.dict []) with
  | .dict fields => return fields.mergeSort fun a b => decide (a.1 ≤ b.1)
  | d => throw (.noMember d.typeName "items")

def parseRun (frames : Frames) (run : String × Datum) : Except Failure RunTable :=
  match run.2 with
  | .str output => do
      let table ← ResultTable.ofOutput frames output
      let time ← (frames.time run.1).mapError .foreign
      return frames.stamp time table
  | d => .error (.misuse (.noMember d.typeName "splitlines"))

def table (frames : Frames) (store : Datum) (key : String) : Except Failure RunTable := do
  let runs ← (runs store key).mapError .misuse
  return RunTable.ofRuns frames (← runs.mapM (parseRun frames))

def layout : Json.Layout :=
  { Json.Layout.indented 2 with sortFields := true }

def draft (p : Path) : Path :=
  p.parent.child (p.name ++ ".tmp")

end BenchmarkStore

namespace Act

def readStore (p : Path) : Act Datum := do
  if (← get).files.exists' p then lift .json (Datum.ofJson (← readText p))
  else return BenchmarkStore.empty

/-- Records the output of a run, and tells the time that it is filed under. -/
def recordRun (p : Path) (key output : String) (moment : Option Moment) : Act String := do
  let stamp := (← match moment with
    | some m => pure m
    | none => now).stamp
  let store ← lift .misuse (BenchmarkStore.insert (← readStore p) key stamp output)
  changeFiles fun fs => fs.ensureDirectories p.parent
  let text := store.toJson BenchmarkStore.layout
  changeFiles fun fs => fs.write (BenchmarkStore.draft p) (Utf8.encode text.toList)
  changeFiles fun fs => fs.rename (BenchmarkStore.draft p) p
  record .debug ("Stored benchmark run " ++ stamp ++ " for " ++ key)
  return stamp

def storedKeys (p : Path) : Act (List Datum) := do
  lift .misuse (BenchmarkStore.keys (← readStore p))

def storedRuns (p : Path) (key : String) : Act (List (String × Datum)) := do
  lift .misuse (BenchmarkStore.runs (← readStore p) key)

def storedTable (p : Path) (key : String) : Act RunTable := do
  lift id (BenchmarkStore.table (← get).library.frames (← readStore p) key)

end Act

end TestRoster
