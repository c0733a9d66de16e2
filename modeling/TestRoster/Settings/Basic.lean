import TestRoster.Discovery.Report
import TestRoster.Files.Home
import TestRoster.Text.Blank
import TestRoster.Text.Lowercase

/-!
What a user can set.

A setting is named without regard to case and underscores. One that is unknown, has no value or has
a value of a wrong kind is logged and changes nothing.
-/
namespace TestRoster

structure Settings where
  colorizeOutput : Bool
  historyFile : Path
  benchmarkStore : Path
  deriving DecidableEq, Repr

inductive SettingName where
  | colorizeOutput
  | historyFile
  | benchmarkStore
  deriving DecidableEq, Repr

inductive SettingFault where
  | unknown (key : String)
  | noValue (key : String)
  | notABool (value key : String)
  deriving DecidableEq, Repr

def SettingFault.message : SettingFault → String
  | .unknown key => "Unknown setting " ++ key
  | .noValue key => "Setting " ++ key ++ " has no value"
  | .notABool value key => "Invalid bool value '" ++ value ++ "' for " ++ key

def SettingFault.record (f : SettingFault) : LogRecord := ⟨.warning, f.message⟩

namespace SettingName

/-- A key without case and underscores. -/
def fold (key : String) : String :=
  lowercase (String.ofList (key.toList.filter (· != '_')))

def ofKey? (key : String) : Option SettingName :=
  match fold key with
  | "colorizeoutput" => some .colorizeOutput
  | "historyfile" => some .historyFile
  | "benchmarkstore" => some .benchmarkStore
  | _ => none

end SettingName

def boolOfWord? (word : String) : Option Bool :=
  if ["1", "t", "T", "true", "TRUE", "True"].contains word then some true
  else if ["0", "f", "F", "false", "FALSE", "False"].contains word then some false
  else none

namespace Settings

def default (homes : Homes) : Settings where
  colorizeOutput := true
  historyFile := homes.directory.child ".go-test-history"
  benchmarkStore := (Path.ofString homes.programDirectory).child "benchmarks.json"

def set (homes : Homes) (s : Settings) (key : String) (value : Option String) :
    Except SettingFault Settings :=
  match SettingName.ofKey? key, value with
  | none, _ => .error (.unknown key)
  | _, none => .error (.noValue key)
  | some name, some value =>
      let word := String.ofList (trim value.toList)
      match name with
      | .colorizeOutput =>
          match boolOfWord? word with
          | some b => .ok { s with colorizeOutput := b }
          | none => .error (.notABool word key)
      | .historyFile => .ok { s with historyFile := Path.ofString (homes.expand word) }
      | .benchmarkStore => .ok { s with benchmarkStore := Path.ofString (homes.expand word) }

/-- The settings after some keys with their values, and what is logged of them. -/
def apply (homes : Homes) : Settings → List (String × Option String) → Settings × List LogRecord
  | s, [] => (s, [])
  | s, (key, value) :: rest =>
      match s.set homes key value with
      | .ok changed => apply homes changed rest
      | .error fault =>
          let (changed, log) := apply homes s rest
          (changed, fault.record :: log)

/-- The settings of a text, and what is logged of it. The text is read as keys with values. -/
def ofText (homes : Homes) (read : String → List (String × Option String)) (text : String) :
    Settings × List LogRecord :=
  (default homes).apply homes (read text)

end Settings

end TestRoster
