import TestRoster.Discovery.Directory
import TestRoster.Files.Home
import TestRoster.Run.Library
import TestRoster.Text.Portion
import TestRoster.Time.Moment

/-!
What a run sees of the world and leaves behind in it.

A session holds the files, the clock, the programs that can be started with what they will do, the
lines that the user will type, and what is taken from elsewhere. An action reads and changes a
session and may fail; what it did before it failed stays done.
-/
namespace TestRoster

structure Behaviour where
  output : List UInt8 := []
  errors : List UInt8 := []
  status : Int := 0
  /-- Why it cannot be started after all. -/
  refusal : Option Refusal := none
  deriving DecidableEq, Repr, Inhabited

/-- How a program is started: its output is read line by line, or it is left alone with the
terminal. -/
inductive Manner where
  | streamed
  | attached
  deriving DecidableEq, Repr

structure Start where
  manner : Manner
  args : List String
  directory : String
  /-- What the script held that the program was told to read first. -/
  script : Option String := none
  deriving DecidableEq, Repr

structure Session where
  files : FileSystem
  clock : Moment
  homes : Homes
  library : Library
  /-- The directory where tools are looked for. -/
  toolDirectory : String
  missingTools : List String := []
  /-- What the programs that are started next will do. -/
  behaviours : List Behaviour := []
  /-- The directory where temporary files are made. -/
  temporaryDirectory : String := "/tmp"
  /-- How the paths of the debugger's scripts begin. -/
  scriptStem : String := "/tmp/go-test_"
  /-- How many temporary files were made. -/
  temporaries : Nat := 0
  /-- How threads finish what they share. -/
  finish : (n : Nat) → FinishingOrder n := fun _ => default
  /-- The lines that the user will type. -/
  input : List String := []
  starts : List Start := []
  shown : List Shown := []
  log : List LogRecord := []

abbrev Act (α : Type) := ExceptT Failure (StateM Session) α

namespace Act

def run {α : Type} (a : Act α) (s : Session) : Except Failure α × Session :=
  StateT.run (ExceptT.run a) s

def lift {ε α : Type} (wrap : ε → Failure) : Except ε α → Act α
  | .ok a => pure a
  | .error e => throw (wrap e)

def echo (line : String) : Act Unit :=
  modify fun s => { s with shown := s.shown ++ [.line line] }

def record (level : Level) (text : String) : Act Unit :=
  modify fun s => { s with log := s.log ++ [⟨level, text⟩] }

def recordAll (log : List LogRecord) : Act Unit :=
  modify fun s => { s with log := s.log ++ log }

/-- The time. The clock moves on by a second. -/
def now : Act Moment := do
  let s ← get
  set { s with clock := s.clock.nextSecond }
  return s.clock

def changeFiles (change : FileSystem → Except FileFault FileSystem) : Act Unit := do
  let s ← get
  let files ← lift .file (change s.files)
  set { s with files := files }

def nextTemporary : Act Nat := do
  let s ← get
  set { s with temporaries := s.temporaries + 1 }
  return s.temporaries + 1

/-- The text of a file, its lines ended by line feeds. -/
def readText (p : Path) : Act String := do
  let bytes ← lift .file ((← get).files.read p p.toString)
  let chars ← lift .notText (Utf8.decode? bytes)
  return String.ofList (unifyLineEnds chars)

def readLines (p : Path) : Act (List (List Char) × Option Utf8.DecodeFault) := do
  return linesOf (← lift .file ((← get).files.read p p.toString))

def findTool (name : String) : Act String := do
  let s ← get
  if s.missingTools.contains name then throw (.noTool name)
  return s.toolDirectory ++ "/" ++ name

def scriptOf? : List String → Option String
  | "--init" :: script :: _ => some script
  | _ :: rest => scriptOf? rest
  | [] => none

def start (manner : Manner) (args : List String) (directory : String) : Act Behaviour := do
  let s ← get
  let script := (scriptOf? args).bind fun name =>
    match s.files.readAt name with
    | .ok bytes => some (String.ofList (Utf8.decodeLossy bytes))
    | .error _ => none
  let started : Start := ⟨manner, args, directory, script⟩
  set { s with starts := s.starts ++ [started], behaviours := s.behaviours.drop 1 }
  let b := s.behaviours.headD {}
  match b.refusal with
  | some refusal => throw (.notStarted refusal)
  | none => return b

end Act

end TestRoster
