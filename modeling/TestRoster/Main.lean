import TestRoster.CommandLine.Bundled
import TestRoster.CommandLine.Commands

/-!
The program: reads the files that a command line is about, runs the command line on them, and writes
the files that it changed.

It starts no tools itself. A command that needs one ends with the report that the tool is missing.
-/
namespace TestRoster.Program

def isNeeded (name : String) : Bool :=
  name == moduleFile || ".go".toList.isSuffixOf name.toList

partial def snapshot (e : IO.FS.DirEntry) : IO (String × Entity) := do
  if ← e.path.isDir then
    let entries ← e.path.readDir
    return (e.fileName, .directory (← entries.toList.mapM snapshot))
  else if isNeeded e.fileName then
    return (e.fileName, .file (← IO.FS.readBinFile e.path).toList)
  else return (e.fileName, .file [])

def bytes? (p : Path) : IO (Option (List UInt8)) := do
  try
    return some (← IO.FS.readBinFile p.toString).toList
  catch _ =>
    return none

def load (fs : FileSystem) (p : Path) : IO FileSystem := do
  match ← bytes? p with
  | none => return fs
  | some bytes =>
      match (fs.ensureDirectories p.parent).bind fun fs => fs.write p bytes with
      | .ok fs => return fs
      | .error _ => return fs

/-- Writes a file of a session if it is not on the machine as it is there. -/
def save (fs : FileSystem) (p : Path) : IO Unit := do
  match fs.read p p.toString with
  | .error _ => return
  | .ok bytes =>
      if (← bytes? p) != some bytes then
        IO.FS.createDirAll p.parent.toString
        IO.FS.writeBinFile p.toString ⟨bytes.toArray⟩

def homesOf (home : String) : Homes where
  own := home
  programDirectory := home ++ "/.config/go-test"

/-- The session that a command line starts in, without any lines typed. -/
def session (files : FileSystem) (home : String) : Session where
  files := files
  clock := { year := 1970, month := 1, day := 1, offset := some 0 }
  homes := homesOf home
  library := .bundled
  toolDirectory := "/usr/local/bin"
  missingTools := ["go", "dlv"]

def settingsFile (home : String) (words : List String) : Path :=
  let given := (GlobalArguments.ofWords words).toOption.bind GlobalArguments.config
  (given.map Path.ofString).getD
    ((Path.ofString (homesOf home).programDirectory).child "config")

/-- Runs a command line, at first as if nothing were typed. When it gets to a prompt, what it shows
so far is printed, a line is read, and it is run again with that line; `printed` characters need not
be shown again. -/
partial def converse (s : Session) (words : List String) (printed : Nat) :
    IO (Report × Session) := do
  let (result, after) := s.carryOut words
  let out ← IO.getStdout
  let asked (prompt : String) : IO (Report × Session) := do
    let text := shownText after.shown ++ prompt
    out.putStr (String.ofList (text.toList.drop printed))
    out.flush
    let line ← (← IO.getStdin).getLine
    if line.isEmpty then
      out.putStrLn "\nAborted!"
      return ({ status := 1, output := "" }, after)
    else
      let typed := line.toList.filter (!isLineEnd ·)
      converse { s with input := s.input ++ [String.ofList typed] } words
        (text.length + typed.length + 1)
  match result with
  | .error (.aborted prompt) => asked prompt
  | result =>
      let report := Report.ofRun after.shown result
      out.putStr (String.ofList (report.output.toList.drop printed))
      if let some raised := report.raised then
        (← IO.getStderr).putStrLn (raised.label ++ ": " ++ raised.message)
      return (report, after)

end TestRoster.Program

open TestRoster TestRoster.Program in
def main (words : List String) : IO UInt32 := do
  let here ← IO.currentDir
  let home := (← IO.getEnv "HOME").getD "/"
  let place := Path.ofString here.toString
  let entries ← (← here.readDir).toList.mapM snapshot
  let files : FileSystem :=
    { root := Entity.put (.directory entries) place.names (.directory []), current := place.names }
  let settingsPlace := settingsFile home words
  let files ← load files settingsPlace
  let (settings, _) := (Act.loadSettings (some settingsPlace)).run (session files home)
  let own := match settings with
    | .ok s => [s.historyFile, s.benchmarkStore]
    | .error _ => []
  let files ← own.foldlM load files
  let (report, after) ← converse (session files home) words 0
  (settingsPlace :: own).forM (save after.files)
  return report.status.toUInt32
