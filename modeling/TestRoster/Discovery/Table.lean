import TestRoster.Discovery.Reference
import TestRoster.Discovery.Step

/-!
Names of table-driven subtests.

A loop ranges over a composite value; each of its elements gives a name or the reason why there is
none. A fault in an element is contained in it.
-/
namespace TestRoster

namespace Node

def isRowElement : Node → Bool
  | .keyedElement .. | .positionalElement .. | .literal .. | .closure .. | .compositeValue .. =>
    true
  | _ => false

def checkRowElement (n : Node) : Except Fault Unit :=
  if n.isRowElement then .ok () else .error (.unknownElement n.describe)

def elementValue : Node → Node
  | .keyedElement _ _ value | .positionalElement _ value => value
  | n => n

/-- The name that an element without key gives to its row. -/
def positionName (cfg : Config) : Node → Except Obstacle String
  | n@(.closure ..) | n@(.compositeValue ..) => .error (.ambiguous (.namePositionHolds n.describe))
  | n => n.literalValue cfg

/-- The name among the elements of a row: under the key `field`, or in the first place without
key. -/
def nameAmong (cfg : Config) (field : Datum) : List Node → Except Obstacle String
  | [] => .error (.ambiguous (.noNameField field))
  | .keyedElement _ key value :: rest =>
      match key.keyName? with
      | .error cause => .error (.fault cause)
      | .ok name => if name.same field then value.literalValue cfg else nameAmong cfg field rest
  | .positionalElement _ value :: _ => positionName cfg value
  | n :: _ => positionName cfg n

/-- The name of a row. Every element has to be of a known shape, also those behind the name. -/
def rowName (cfg : Config) (field : Datum) (row : Node) : Except Obstacle String := do
  let elements ← Obstacle.orFault row.elementList?
  Obstacle.orFault (elements.forM checkRowElement)
  nameAmong cfg field elements

def searched (line : Int) : Except Obstacle String → Except Fault Resolution
  | .ok name => .ok (.named name line)
  | .error (.ambiguous why) => .ok (.skipped why line)
  | .error (.fault cause) => .error cause

def readRow (cfg : Config) (field : Datum) (element : Node) : Except Fault Resolution :=
  match element.elementValue.behindIndirection with
  | row@(.compositeValue line _) => searched line (row.rowName cfg field)
  | row => .ok (.skipped (.rowIsA row.describe) element.line)

def readKey (cfg : Config) (element : Node) : Except Fault Resolution :=
  match element with
  | .keyedElement line key _ => searched line (key.literalValue cfg)
  | _ => .ok (.skipped .keyIsIndex element.line)

def readValue (cfg : Config) (element : Node) : Except Fault Resolution :=
  searched element.line do
    Obstacle.orFault element.checkRowElement
    element.elementValue.literalValue cfg

def containElement (cfg : Config) (element : Node) (found : Resolution) (cause : Fault) :
    Step Resolution :=
  found.addIssue <$> Step.contain cfg element.describe element.line
    ("table row at line " ++ toString element.line) cause

def readElements (cfg : Config) (read : Node → Except Fault Resolution) :
    Resolution → List Node → Step Resolution
  | found, [] => return found
  | found, element :: rest => do
      let found ← (found.extend <$> Step.ofReading (read element)).recover
        (containElement cfg element found)
      readElements cfg read found rest

/-- Reads every element of the collection that `source` leads to. -/
def eachElement (cfg : Config) (source : Node) (read : Node → Except Fault Resolution) :
    Step Resolution :=
  match source.collection cfg with
  | .ok table => do readElements cfg read {} (← Step.ofReading table.elementList?)
  | .error (.ambiguous why) => return .skipped why source.line
  | .error (.fault cause) => Step.fail cause

/-- One name per row of the table, from the given field. -/
def tableNames (cfg : Config) (field : Datum) (source : Node) : Step Resolution :=
  source.eachElement cfg (readRow cfg field)

def mapKeys (cfg : Config) (source : Node) : Step Resolution :=
  source.eachElement cfg (readKey cfg)

def elementValues (cfg : Config) (source : Node) : Step Resolution :=
  source.eachElement cfg (readValue cfg)

end Node

end TestRoster
