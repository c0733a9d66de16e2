import TestRoster.Discovery.Entry
import TestRoster.Go.SourceTree

/-!
Discovery of one file: parse, then look among the declarations.
-/
namespace TestRoster

inductive DiscoveryFailure where
  | parse (failure : ParseFailure)
  | shape (fault : Fault)

def DiscoveryFailure.message : DiscoveryFailure → String
  | .parse failure => failure.message
  | .shape fault => fault.message

/-- The outcome of discovering one file, with everything that was logged. -/
structure FileOutcome where
  result : Except DiscoveryFailure Discovery
  log : List LogRecord

namespace FileOutcome

def ofTree (cfg : Config) (mode : Mode) (tree : SourceTree) : FileOutcome :=
  let step := Discovery.ofDeclarations cfg mode tree.path tree.declarations
  ⟨step.result.mapError .shape, step.log⟩

def ofParsed (cfg : Config) (mode : Mode) :
    Except ParseFailure (SourceTree × List LogRecord) → FileOutcome
  | .error failure => ⟨.error (.parse failure), []⟩
  | .ok (tree, log) =>
      let outcome := ofTree cfg mode tree
      { outcome with log := log ++ outcome.log }

def ofCst (cfg : Config) (mode : Mode) (src : Go.Source) (path : String) (root : Go.Cst) :
    FileOutcome :=
  ofParsed cfg mode (SourceTree.ofCst src path cfg.tolerateSyntaxErrors root)

end FileOutcome

end TestRoster
