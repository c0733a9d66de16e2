import TestRoster.Run.Command
import TestRoster.Run.Session
import TestRoster.Text.Terminal

/-!
Building commands in a session and carrying them out.
-/
namespace TestRoster

structure Outcome where
  passed : Bool
  status : Int
  output : List String
  command : Command
  deriving DecidableEq, Repr

def occursIn (part : List Char) : List Char → Bool
  | [] => part.isEmpty
  | c :: cs => part.isPrefixOf (c :: cs) || occursIn part cs

/-- Red for lines that tell of a failure, green for lines that tell of a pass. -/
def colorize (line : String) : String :=
  if occursIn "FAIL".toList line.toList then coloured redCode line
  else if occursIn "PASS".toList line.toList then coloured greenCode line
  else line

def outputLines (output : List UInt8) : List String × Option Utf8.DecodeFault :=
  let (lines, flaw) := linesOf output
  (lines.map String.ofList, flaw)

namespace Act

def reportFile (name : String) (directory : Option String) : Act String := do
  let n ← nextTemporary
  let parent := directory.getD (← get).temporaryDirectory
  return parent ++ (if parent.toList.getLast? = some '/' then "" else "/") ++ reportStem name ++
    toString n

def reportIf (asked : Bool) (name : String) (directory : Option String) : Act (Option String) :=
  if asked then some <$> reportFile name directory else pure none

def moduleRoot (target : String) : Act Path := do
  match (← get).files.moduleRoot? (Path.ofString target) with
  | some root => return root
  | none => throw (.noModule target)

def rootOr (given : Option String) (target : String) : Act Path :=
  match given with
  | some root => pure (Path.ofString root)
  | none => moduleRoot target

/-- The target that a command runs: the file of its test if it has one. -/
def effectiveTarget (test : Option TestCase) (target : String) : String :=
  match test with
  | some t => t.file
  | none => target

def testCommand (test : Option TestCase) (target : String) (root : Option String)
    (options : RunOptions) (reports : Option String) : Act Command := do
  let target := effectiveTarget test target
  let root ← rootOr root target
  let package := (← get).files.packageTarget (Path.ofString target) root test.isSome
  let name := (test.map TestCase.name).getD ""
  let cover ← reportIf options.cover name reports
  let cpu ← reportIf options.cpuProfile name reports
  let mem ← reportIf options.memProfile name reports
  return (Command.forTest test package root.toString options).withReports
    { cover := cover, cpu := cpu, mem := mem }

def benchmarkCommand (test : Option TestCase) (target : String) (root : Option String)
    (options : RunOptions) (reports : Option String) : Act Command := do
  let target := effectiveTarget test target
  let root ← rootOr root target
  let package := (← get).files.packageTarget (Path.ofString target) root test.isSome
  let name := (test.map TestCase.name).getD ""
  let cpu ← reportIf options.cpuProfile name reports
  let mem ← reportIf options.memProfile name reports
  return (Command.forBenchmark test package root.toString options).withReports
    { cpu := cpu, mem := mem }

/-- The path of a command's program, and its arguments. -/
def program (c : Command) : Act (List String) :=
  match c.args with
  | [] => throw (.misuse .outOfRange)
  | name :: rest => return (← findTool name) :: rest

def recordExecution (c : Command) : Act Unit :=
  record .debug ("Executing " ++ (Datum.list (c.args.map .str)).literal ++ " in " ++ c.directory)

def execute (c : Command) (colour : Bool) : Act Outcome := do
  let args ← program c
  echo ("Running " ++ c.display ++ " @ " ++ c.directory)
  recordExecution c
  let b ← start .streamed args c.directory
  let (lines, flaw) := outputLines b.output
  lines.forM fun line => echo (if colour then colorize line else line)
  if let some fault := flaw then throw (.notText fault)
  return ⟨b.status == 0, b.status, lines, c⟩

def executeAttached (c : Command) : Act Outcome := do
  let args ← program c
  recordExecution c
  let b ← start .attached args c.directory
  return ⟨b.status == 0, b.status, [], c⟩

def showProfile (go label directory : String) : Option String → Act Unit
  | none | some "" => pure ()
  | some profile => do
      echo ("Wrote " ++ label ++ " Profile to: " ++ profile)
      discard <| start .attached [go, "tool", "pprof", "-top", profile] directory

def showCoverage (go directory : String) : Option String → Act Unit
  | none | some "" => pure ()
  | some file => discard <| start .attached [go, "tool", "cover", "-html=" ++ file] directory

def showReports (c : Command) : Act Unit := do
  let go ← findTool "go"
  showCoverage go c.directory c.coverFile
  showProfile go "CPU" c.directory c.cpuProfile
  showProfile go "Memory" c.directory c.memProfile

/-- What a program wrote as a text without blanks at either end. -/
def trimmedText (bytes : List UInt8) : Act String := do
  let chars ← lift .notText (Utf8.decode? bytes)
  return String.ofList (trim (unifyLineEnds chars))

def importPath (package directory : String) : Act String := do
  let go ← findTool "go"
  let b ← start .attached [go, "list", "-f", "\x7b\x7b.ImportPath\x7d\x7d", package] directory
  let output ← trimmedText b.output
  let errors ← trimmedText b.errors
  if b.status = 0 then return output
  else throw (.notListed package errors)

/-- Runs an action and then another one, which runs even if the first one fails. -/
def ensuring {α : Type} (a : Act α) (after : Act Unit) : Act α := ExceptT.mk do
  let result ← ExceptT.run a
  discard <| ExceptT.run after
  return result

def removeFile (p : Path) : Act Unit :=
  modify fun s =>
    match s.files.locate p with
    | .ok names => { s with files := { s.files with root := s.files.root.erase names } }
    | .error _ => s

def nameTries : Nat := 10000

/-- Makes a new file for a script, under the first name that is free, and tells its path. -/
def newScript : Nat → Act String
  | 0 => throw (.foreign ⟨"FileExistsError", "[Errno 17] No usable temporary file name found"⟩)
  | tries + 1 => do
      let script := (← get).scriptStem ++ toString (← nextTemporary)
      if (← get).files.exists' (Path.ofString script) then newScript tries
      else
        changeFiles fun fs => fs.write (Path.ofString script) []
        return script

/-- Runs one test in the debugger, which stops at the test's line. The outcome holds the command
without the script, which is gone by then. -/
def debugTest (test : TestCase) (root : Option String) : Act Outcome := do
  let root ← rootOr root test.file
  let files := (← get).files
  let package := files.packageTarget (Path.ofString test.file) root true
  let imported ← importPath package root.toString
  let script ← newScript nameTries
  let place := Path.ofString script
  let text := breakScript (files.breakPlace test root)
  let outcome ← ensuring (do
      changeFiles fun fs => fs.write place (Utf8.encode text.toList)
      executeAttached (Command.forDebugger test imported root.toString (some script)))
    (removeFile place)
  return { outcome with command := Command.forDebugger test imported root.toString none }

end Act

end TestRoster
