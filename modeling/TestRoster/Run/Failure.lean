import TestRoster.Datum.Access
import TestRoster.Datum.Reader
import TestRoster.Files.Tree
import TestRoster.Text.Utf8

/-!
Why a command cannot be carried out.

Some failures are the user's business and are reported as such: there is no module, a tool is
missing, a package cannot be listed, the history is of no use. All others end the command.
-/
namespace TestRoster

inductive HistoryFault where
  | empty
  | badLine (path : String) (line : Nat) (fault : Json.Fault)
  | badEntry (fault : Misuse)
  | gone (directory : String)
  | notRerun (entry reason : String)
  deriving DecidableEq, Repr

def HistoryFault.message : HistoryFault → String
  | .empty => "No commands in history"
  | .badLine path line fault => path ++ ":" ++ toString line ++ ": " ++ fault.message
  | .badEntry fault => "Invalid history entry: " ++ fault.message
  | .gone directory => "Directory " ++ directory ++ " no longer exists"
  | .notRerun entry reason => "Could not rerun " ++ entry ++ ": " ++ reason

/-- An exception, told by its class and its message. -/
structure Raised where
  label : String
  message : String
  deriving DecidableEq, Repr, Inhabited

/-- Why a program is not started. -/
inductive Refusal where
  | subprocess (reason : String)
  | other (raised : Raised)
  deriving DecidableEq, Repr

def Refusal.raised : Refusal → Raised
  | .subprocess reason => ⟨"SubprocessError", reason⟩
  | .other raised => raised

inductive Failure where
  | noModule (target : String)
  | noTool (name : String)
  | notListed (package output : String)
  | history (fault : HistoryFault)
  | notStarted (refusal : Refusal)
  | file (fault : FileFault)
  | notText (fault : Utf8.DecodeFault)
  | json (fault : Json.Fault)
  | misuse (fault : Misuse)
  | notAFloat (text : String)
  | foreign (raised : Raised)
  | noMatch (filter : String)
  | noRuns (key : String)
  | aborted (prompt : String)
  deriving DecidableEq, Repr

namespace Failure

def message : Failure → String
  | .noModule target => "could not find module root above " ++ target
  | .noTool name => "'" ++ name ++ "' was not found on PATH"
  | .notListed package output => "go list failed for " ++ package ++ ": " ++ output
  | .history fault => fault.message
  | .notStarted refusal => refusal.raised.message
  | .file fault => fault.message
  | .notText fault => fault.message
  | .json fault => fault.message
  | .misuse fault => fault.message
  | .notAFloat text => "could not convert string to float: " ++ literalText text
  | .foreign raised => raised.message
  | .noMatch filter => "No tests match '" ++ filter ++ "'"
  | .noRuns key => "No runs stored for '" ++ key ++ "'"
  | .aborted _ => ""

def label : Failure → String
  | .noModule _ => "ModuleRootNotFoundError"
  | .noTool _ => "ToolNotFoundError"
  | .notListed _ _ => "GopickError"
  | .history _ => "HistoryError"
  | .notStarted refusal => refusal.raised.label
  | .file fault => fault.cause.label
  | .notText _ => "UnicodeDecodeError"
  | .json (.malformed _ _ _ _) => "JSONDecodeError"
  | .json (.numeralTooLong _) => "ValueError"
  | .misuse fault => fault.label
  | .notAFloat _ => "ValueError"
  | .foreign raised => raised.label
  | .noMatch _ | .noRuns _ => "ClickException"
  | .aborted _ => "Abort"

def raised (f : Failure) : Raised :=
  ⟨f.label, f.message⟩

/-- Whether a failure is told as the user's business. -/
def isReported : Failure → Bool
  | .noModule _ | .noTool _ | .notListed _ _ | .history _ | .noMatch _ | .noRuns _ => true
  | _ => false

end Failure

end TestRoster
