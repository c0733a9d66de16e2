import TestRoster.Benchmark.Table
import TestRoster.CommandLine.Invocation
import TestRoster.Go.Cst
import TestRoster.Go.Source

/-!
What is taken from elsewhere.

Sources, settings, command lines and tables are read by programs that are not told here. A session
holds one of each; nothing is known of them but what is assumed where it is needed.
-/
namespace TestRoster

structure Library where
  /-- The concrete tree of a source. -/
  parse : Go.Source → Go.Cst
  /-- The settings of a text, each key once. A key may stand without a value. -/
  settings : String → List (String × Option String)
  terminal : Terminal
  frames : Frames

end TestRoster
