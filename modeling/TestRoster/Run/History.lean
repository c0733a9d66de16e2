import TestRoster.Datum.Writer
import TestRoster.Run.Execute

/-!
The history of runs: a file with one entry per line, the oldest first.

Entries are read as they are. The arguments of a command are the parts of whatever stands there, and
the directory may be a value of any type until it is used.
-/
namespace TestRoster

/-- A command that was run, where, and whether it passed. -/
structure HistoryEntry where
  args : List Datum
  directory : Datum
  passed : Bool := false
  timestamp : Datum

namespace HistoryEntry

def toDatum (e : HistoryEntry) : Datum :=
  .dict [("args", .list e.args), ("cwd", e.directory), ("passed", .bool e.passed),
    ("timestamp", e.timestamp)]

def ofDatum (d : Datum) : Except Misuse HistoryEntry := do
  let args ← (← d.item "args").parts
  let directory ← d.item "cwd"
  let passed ← d.itemD "passed" (.bool false)
  let timestamp ← d.itemD "timestamp" (.str "")
  return ⟨args, directory, passed.truthy, timestamp⟩

def text (e : HistoryEntry) : Except Misuse String := do
  return "[" ++ (if e.passed then "PASS" else "FAIL") ++ "] " ++ (← Datum.joinTexts " " e.args) ++
    " @ " ++ e.directory.text

def textOfDatum : Datum → Except Misuse String
  | .str s => .ok s
  | d => .error (.notText d.typeName)

/-- The command of an entry, if its arguments and its directory are texts. -/
def command (e : HistoryEntry) : Except Misuse Command := do
  let args ← e.args.mapM textOfDatum
  match e.directory with
  | .str directory => return { args := args, directory := directory }
  | d => throw (.notPath d.typeName)

/-- The line of an entry in the file, without its end. -/
def line (e : HistoryEntry) : String :=
  e.toDatum.toJson {}

end HistoryEntry

namespace History

/-- The entry of a line of a file. A blank line has none. -/
def entryOf (path : String) (number : Nat) (line : List Char) :
    Except Failure (Option HistoryEntry) :=
  match trim line with
  | [] => .ok none
  | chars =>
      match Datum.ofJson (String.ofList chars) with
      | .error (.malformed cause l c p) =>
          .error (.history (.badLine path number (.malformed cause l c p)))
      | .error fault => .error (.json fault)
      | .ok d => ((HistoryEntry.ofDatum d).map some).mapError (.history ∘ .badEntry)

/-- The entries of the lines of a file, from the line with this number on. -/
def entriesFrom (path : String) : Nat → List (List Char) → Except Failure (List HistoryEntry)
  | _, [] => .ok []
  | number, line :: rest => do
      let e ← entryOf path number line
      return e.toList ++ (← entriesFrom path (number + 1) rest)

/-- The entries of the lines of a file. A flaw behind the lines counts only if all of them are
read. -/
def ofLines (path : String) (lines : List (List Char) × Option Utf8.DecodeFault) :
    Except Failure (List HistoryEntry) :=
  match entriesFrom path 1 lines.1, lines.2 with
  | .ok _, some fault => .error (.notText fault)
  | result, _ => result

end History

namespace Act

def historyEntry (c : Command) (passed : Bool) : Act HistoryEntry := do
  let timestamp ← now
  let directory := (← get).files.resolve (Path.ofString c.directory)
  return ⟨c.args.map .str, .str directory.toString, passed, .str timestamp.stamp⟩

def appendEntry (p : Path) (e : HistoryEntry) : Act Unit := do
  changeFiles fun fs => fs.ensureDirectories p.parent
  changeFiles fun fs => fs.append p (Utf8.encode (e.line ++ "\n").toList)

def loadEntries (p : Path) : Act (List HistoryEntry) := do
  if (← get).files.exists' p then
    lift id (History.ofLines p.toString (← readLines p))
  else return []

def lastEntry (p : Path) : Act HistoryEntry := do
  match (← loadEntries p).getLast? with
  | some e => return e
  | none => throw (.history .empty)

/-- Carries out a command again. The debugger talks with the user. -/
def repeatCommand (c : Command) (colour : Bool) : Act Outcome :=
  if c.args.head? = some "dlv" then executeAttached c else execute c colour

/-- Runs an entry again in its directory, which still has to be there. -/
def rerun (e : HistoryEntry) (colour : Bool) : Act Outcome := do
  match e.directory with
  | .str directory =>
      if !(← get).files.isDirectory (Path.ofString directory) then
        throw (.history (.gone directory))
  | d => throw (.misuse (.notPath d.typeName))
  let c ← lift .misuse e.command
  tryCatch (repeatCommand c colour) fun failure => do
    match failure with
    | .notStarted (.subprocess reason) =>
        throw (.history (.notRerun (← lift .misuse e.text) reason))
    | failure => throw failure

end Act

end TestRoster
