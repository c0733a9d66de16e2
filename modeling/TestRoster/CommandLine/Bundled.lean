import TestRoster.Benchmark.Bundled
import TestRoster.CommandLine.Arguments
import TestRoster.CommandLine.Prompt
import TestRoster.Go.Grammar.File
import TestRoster.Run.Library
import TestRoster.Settings.Line

/-!
The readers and the operations on tables that come with the program.
-/
namespace TestRoster

def Terminal.bundled : Terminal where
  arguments fs words := (argumentsOf fs words).mapError UsageFault.ended
  invocation fs g := (invocationOf fs g).mapError UsageFault.ended
  ask label := askWith (label ++ ": ")

def Library.bundled : Library where
  parse := Go.Cst.ofSource
  settings := Setting.ofText
  terminal := .bundled
  frames := .bundled

end TestRoster
