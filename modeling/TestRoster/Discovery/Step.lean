import TestRoster.Discovery.Config
import TestRoster.Discovery.Report

/-!
Steps of a discovery.

A step writes to the log and ends with a result or with a fault. A fault ends the steps around it up
to the place where it is contained; what was logged before it stays logged.
-/
namespace TestRoster

/-- What a step logged, and its result or the fault that ended it. -/
structure Step (α : Type) where
  log : List LogRecord
  result : Except Fault α

namespace Step

variable {α β : Type}

def andThen (s : Step α) (next : α → Step β) : Step β :=
  match s.result with
  | .ok a => ⟨s.log ++ (next a).log, (next a).result⟩
  | .error cause => ⟨s.log, .error cause⟩

instance : Monad Step where
  pure a := ⟨[], .ok a⟩
  bind := andThen

def ofReading (r : Except Fault α) : Step α :=
  ⟨[], r⟩

def fail (cause : Fault) : Step α :=
  ⟨[], .error cause⟩

def say (record : LogRecord) : Step Unit :=
  ⟨[record], .ok ()⟩

def recover (s : Step α) (handler : Fault → Step α) : Step α :=
  match s.result with
  | .ok _ => s
  | .error cause => ⟨s.log ++ (handler cause).log, (handler cause).result⟩

/-- Contains a fault met in a node of this kind and line. Strict discovery fails with it; else it is
an issue, and the log names what is skipped. -/
def contain (cfg : Config) (kind : String) (line : Int) (skipped : String) (cause : Fault) :
    Step Issue :=
  let fault := cause.within kind
  if cfg.strict then fail fault
  else do
    say ⟨.warning, "Skipping " ++ skipped ++ ": " ++ fault.message⟩
    return ⟨.unexpectedShape fault, line⟩

end Step

end TestRoster
