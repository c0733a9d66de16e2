import TestRoster.Discovery.Entry
import TestRoster.Go.Module
import TestRoster.Text.Pattern
import TestRoster.Text.ShellWord

/-!
Commands that run tests, benchmarks and the debugger.

A command is a list of arguments and the directory to run them in. Building one does not run it. The
names of the files that a command is to write have to be given.
-/
namespace TestRoster

/-- One part of a name as a filter: spaces are underscores, and the whole part has to match. -/
def filterPart (part : String) : String :=
  String.ofList ('^' :: escapePattern (part.toList.map fun c => if c = ' ' then '_' else c) ++
    ['$'])

/-- The filter that matches one test by its name, part by part. -/
def runFilter (name : String) : String :=
  String.intercalate "/" ((splitText '/' name).map filterPart)

def noTestsFilter : String := "^$"

structure RunOptions where
  quiet : Bool := false
  cover : Bool := false
  cpuProfile : Bool := false
  memProfile : Bool := false
  benchMem : Bool := false
  deriving DecidableEq, Repr

/-- A command line and the directory to run it in, with the files that it writes. -/
structure Command where
  args : List String
  directory : String
  coverFile : Option String := none
  cpuProfile : Option String := none
  memProfile : Option String := none
  deriving DecidableEq, Repr

def Command.display (c : Command) : String :=
  shellLine c.args

structure Reports where
  cover : Option String := none
  cpu : Option String := none
  mem : Option String := none

def fileOption (flag : String) : Option String → List String
  | some file => [flag, file]
  | none => []

namespace Command

def withReports (c : Command) (r : Reports) : Command :=
  { c with
    args := c.args ++ fileOption "-coverprofile" r.cover ++ fileOption "-cpuprofile" r.cpu ++
      fileOption "-memprofile" r.mem
    coverFile := r.cover
    cpuProfile := r.cpu
    memProfile := r.mem }

def forTest (test : Option TestCase) (package root : String) (options : RunOptions) : Command where
  args :=
    ["go", "test"] ++ (if options.quiet then [] else ["-v"]) ++ [package] ++
      match test with
      | some t => ["-run", runFilter t.name]
      | none => []
  directory := root

def forBenchmark (test : Option TestCase) (package root : String) (options : RunOptions) :
    Command where
  args :=
    ["go", "test", "-v", package, "-run", noTestsFilter, "-bench",
      match test with
      | some t => runFilter t.name
      | none => "."] ++ (if options.benchMem then ["-benchmem"] else [])
  directory := root

/-- Runs one test in the debugger, which reads its first commands from a script if there is one. -/
def forDebugger (test : TestCase) (importPath root : String) (script : Option String) :
    Command where
  args :=
    ["dlv", "test"] ++ fileOption "--init" script ++
      [importPath, "--", "-test.run", runFilter test.name]
  directory := root

end Command

/-- The debugger's first commands: stop at a place and run up to it. -/
def breakScript (place : String) : String :=
  "b " ++ place ++ "\nc\n"

def FileSystem.breakPlace (fs : FileSystem) (test : TestCase) (root : Path) : String :=
  fs.fromModule (Path.ofString test.file) root ++ ":" ++ toString test.line

def isFileNameChar (c : Char) : Bool :=
  ('a' ≤ c && c ≤ 'z') || ('A' ≤ c && c ≤ 'Z') || ('0' ≤ c && c ≤ '9') ||
    c == '_' || c == '.' || c == '-'

def fileNameChars : List Char → List Char
  | [] => []
  | c :: rest =>
      if isFileNameChar c then c :: fileNameChars rest
      else
        match rest with
        | d :: _ => if isFileNameChar d then '_' :: fileNameChars rest else fileNameChars rest
        | [] => ['_']

def reportStem (name : String) : String :=
  let safe := String.ofList (fileNameChars name.toList)
  "go-test_" ++ (if safe = "" then "all" else safe) ++ "_"

end TestRoster
