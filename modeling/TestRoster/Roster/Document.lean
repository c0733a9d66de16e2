import TestRoster.Datum.Access
import TestRoster.Datum.Reader
import TestRoster.Datum.Writer
import TestRoster.Discovery.Entry

/-!
Lists of tests as documents.

A document holds the version of its format and one dictionary per test. Reading takes the name and
the file as they are, whatever their type, and turns the line into a number and the flag into a
truth value.
-/
namespace TestRoster

structure SavedTest where
  name : Datum
  file : Datum
  line : Int
  benchmark : Bool

def TestCase.saved (t : TestCase) : SavedTest :=
  ⟨.str t.name, .str t.file, t.line, t.benchmark⟩

def documentVersion : String := "1.0"

inductive DocumentFault where
  | notATest (type : String)
  | notADictionary (type : String)
  | noField (name : String)
  | unknownVersion (version : String)
  | missingInTest (field : String)
  | misuse (fault : Misuse)
  | json (fault : Json.Fault)
  deriving DecidableEq, Repr

namespace DocumentFault

def label : DocumentFault → String
  | .notATest _ | .notADictionary _ => "TypeError"
  | .noField _ | .unknownVersion _ | .missingInTest _ | .json _ => "ValueError"
  | .misuse fault => fault.label

def message : DocumentFault → String
  | .notATest type => "Expected TestCase, got <class '" ++ type ++ "'>"
  | .notADictionary type => "Expected dict, got <class '" ++ type ++ "'>"
  | .noField name => "Serialized tests must have '" ++ name ++ "' field"
  | .unknownVersion version =>
      "Unsupported serialization version: " ++ version ++ ". Expected " ++ documentVersion
  | .missingInTest field =>
      "Missing required field in test: " ++ (Misuse.missing field).message
  | .misuse fault => fault.message
  | .json (.malformed cause line column position) =>
      "Invalid JSON: " ++ (Json.Fault.malformed cause line column position).message
  | .json (.numeralTooLong digits) => (Json.Fault.numeralTooLong digits).message

end DocumentFault

/-- What is handed over to be written: a test, or a value that is none. -/
inductive RosterItem where
  | test (t : SavedTest)
  | other (d : Datum)

namespace SavedTest

def toDatum (t : SavedTest) : Datum :=
  .dict [("name", t.name), ("file", t.file), ("line", .int t.line),
    ("benchmark", .bool t.benchmark)]

def ofDatum (d : Datum) : Except Misuse SavedTest := do
  let name ← d.item "name"
  let file ← d.item "file"
  let line ← (← d.itemD "line" (.int 0)).whole
  let benchmark ← d.itemD "benchmark" (.bool false)
  return ⟨name, file, line, benchmark.truthy⟩

end SavedTest

def RosterItem.toDatum : RosterItem → Except DocumentFault Datum
  | .test t => .ok t.toDatum
  | .other d => .error (.notATest d.typeName)

namespace Roster

def toDatum (items : List RosterItem) : Except DocumentFault Datum := do
  return .dict [("version", .str documentVersion),
    ("tests", .list (← items.mapM RosterItem.toDatum))]

def toJson (items : List RosterItem) (layout : Json.Layout) : Except DocumentFault String := do
  return (← toDatum items).toJson layout

/-- A misuse inside a test: a missing field is told as such. -/
def testFault : Misuse → DocumentFault
  | .missing field => .missingInTest field
  | fault => .misuse fault

def ofDatum : Datum → Except DocumentFault (List SavedTest)
  | .dict fields =>
      match Datum.field? fields "version", Datum.field? fields "tests" with
      | none, _ => .error (.noField "version")
      | _, none => .error (.noField "tests")
      | some version, some tests =>
          if version.same (.str documentVersion) then do
            let items ← tests.parts.mapError .misuse
            (items.mapM SavedTest.ofDatum).mapError testFault
          else .error (.unknownVersion version.text)
  | d => .error (.notADictionary d.typeName)

def ofJson (text : String) : Except DocumentFault (List SavedTest) := do
  ofDatum (← (Datum.ofJson text).mapError .json)

end Roster

end TestRoster
