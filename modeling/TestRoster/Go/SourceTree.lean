import TestRoster.Discovery.Report
import TestRoster.Go.Reading
import TestRoster.Go.Scope

/-!
The declarations of one source file.
-/
namespace TestRoster

inductive ParseCause where
  /-- The first syntax error is on this line; zero if none can be pointed at. -/
  | malformed (line : Nat)
  | unreadable (reason : String)
  | notText (fault : Utf8.DecodeFault)

def ParseCause.message : ParseCause → String
  | .malformed line => "syntax error at line " ++ toString line
  | .unreadable reason => "cannot read file: " ++ reason
  | .notText fault => "not valid UTF-8: " ++ fault.message

structure ParseFailure where
  path : String
  cause : ParseCause

def ParseFailure.message (f : ParseFailure) : String :=
  f.path ++ ": " ++ f.cause.message

/-- The functions and methods that a source file declares, in order. -/
structure SourceTree where
  path : String
  declarations : List Node

namespace SourceTree

/-- The tree without regard to syntax errors. -/
def build (src : Go.Source) (path : String) (root : Go.Cst) : SourceTree :=
  ⟨path, (Go.File.ofCst src root).declarations⟩

def errorLine (src : Go.Source) (root : Go.Cst) : Nat :=
  match root.firstError? with
  | some i => src.line i.start
  | none => 0

/-- The tree of a concrete tree, with what is logged on the way. A syntax error is fatal unless it
is tolerated. -/
def ofCst (src : Go.Source) (path : String) (tolerate : Bool) (root : Go.Cst) :
    Except ParseFailure (SourceTree × List LogRecord) :=
  if root.info.flagged then
    let line := errorLine src root
    if tolerate then
      .ok (build src path root,
        [⟨.warning, path ++ ": syntax error at line " ++ toString line ++
          ", discovering what parsed"⟩])
    else .error ⟨path, .malformed line⟩
  else .ok (build src path root, [])

end SourceTree

end TestRoster
