/-!
Settings of one discovery.
-/
namespace TestRoster

inductive Mode where
  | tests
  | benchmarks
  deriving DecidableEq, Repr

def Mode.word : Mode → String
  | .tests => "tests"
  | .benchmarks => "benchmarks"

/-- A discovery depends on its input and on these settings alone. -/
structure Config where
  testPrefix : String := "Test"
  benchmarkPrefix : String := "Benchmark"
  reservedNames : List String := ["TestMain"]
  subtestMethod : String := "Run"
  strict : Bool := false
  verbose : Bool := false
  tolerateSyntaxErrors : Bool := false
  /-- The most identifiers that one reference visits. -/
  maxReferenceDepth : Nat := 8
  testFileSuffix : String := "_test.go"
  /-- Names of directories that a walk never enters. -/
  skipDirs : List String := ["vendor", "testdata", "node_modules"]

end TestRoster
