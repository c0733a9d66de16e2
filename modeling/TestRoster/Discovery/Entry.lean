import TestRoster.Discovery.Subtest
import TestRoster.Text.Split

/-!
Tests and benchmarks among the declarations of a file.

An entry is a declaration named like a test or a benchmark. It is listed whatever its body holds;
the subtests of a test follow it, those of a benchmark are not looked for.
-/
namespace TestRoster

/-- One discovered test, benchmark or subtest. Two of one name are both listed. -/
structure TestCase where
  name : String
  file : String
  line : Int := 0
  benchmark : Bool := false
  deriving DecidableEq, Repr

/-- The parts of a test's name, from the entry down. -/
def TestCase.segments (t : TestCase) : List String :=
  splitText '/' t.name

structure Entry where
  name : String
  line : Int
  body : Sequence
  receiver : Datum

namespace Entry

def accepts (cfg : Config) (mode : Mode) (name : String) : Bool :=
  match mode with
  | .benchmarks => cfg.benchmarkPrefix.toList.isPrefixOf name.toList
  | .tests => cfg.testPrefix.toList.isPrefixOf name.toList && !cfg.reservedNames.contains name

def ofNode? (cfg : Config) (mode : Mode) : Node → Option Entry
  | .declaration line (.str name) body receiver =>
      if accepts cfg mode name then some ⟨name, line, body, receiver⟩ else none
  | _ => none

/-- The entries among declarations, in order. -/
def classify (cfg : Config) (mode : Mode) (declarations : List Node) : List Entry :=
  declarations.filterMap (ofNode? cfg mode)

end Entry

structure Discovery where
  tests : List TestCase := []
  issues : List Issue := []

namespace Discovery

def addTest (d : Discovery) (t : TestCase) : Discovery :=
  { d with tests := d.tests ++ [t] }

def addIssue (d : Discovery) (issue : Issue) : Discovery :=
  { d with issues := d.issues ++ [issue] }

/-- Adds the subtests of an entry, each name with its line, and their issues. -/
def addSubtests (d : Discovery) (path : String) (r : Resolution) : Discovery where
  tests := d.tests ++ (r.names.zip r.lines).map fun n => ⟨n.1, path, n.2, false⟩
  issues := d.issues ++ r.issues

end Discovery

namespace Entry

def root (mode : Mode) (path : String) (e : Entry) : TestCase :=
  ⟨e.name, path, e.line, mode == .benchmarks⟩

def contain (cfg : Config) (e : Entry) (found : Discovery) (cause : Fault) : Step Discovery :=
  found.addIssue <$> Step.contain cfg "Declaration" e.line ("subtests of " ++ e.name) cause

def announce (cfg : Config) (e : Entry) : Step Unit :=
  if cfg.verbose then Step.say ⟨.debug, "Evaluating " ++ e.name⟩ else return ()

/-- What an entry contributes, behind what was found before it: itself, then its subtests. -/
def discover (cfg : Config) (mode : Mode) (path : String) (found : Discovery) (e : Entry) :
    Step Discovery := do
  e.announce cfg
  let found := found.addTest (e.root mode path)
  match mode with
  | .benchmarks => return found
  | .tests =>
      (found.addSubtests path <$> Node.resolve cfg e.name e.body).recover (e.contain cfg found)

def discoverEach (cfg : Config) (mode : Mode) (path : String) :
    Discovery → List Entry → Step Discovery
  | found, [] => return found
  | found, e :: rest => do
      discoverEach cfg mode path (← e.discover cfg mode path found) rest

end Entry

/-- The tests among the declarations of the file at `path`. Only strict discovery can fail. -/
def Discovery.ofDeclarations (cfg : Config) (mode : Mode) (path : String)
    (declarations : List Node) : Step Discovery :=
  Entry.discoverEach cfg mode path {} (Entry.classify cfg mode declarations)

end TestRoster
