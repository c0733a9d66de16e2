import TestRoster.Discovery.Subtest
import TestRoster.Proofs.Discovery.Finding

/-!
The subtests of a body as a list of findings.

The account of a body does not depend on strictness and cannot fail. Main statement: resolving a
body is the outcome of its account, so a fault never takes anything with it but what it stands in.
-/
namespace TestRoster

/-- The step that findings or a fault of its own describe. -/
def Step.ofAccount (strict : Bool) : Except Fault (List Finding) → Step Resolution
  | .ok fs => Finding.outcome strict fs (.ofFindings fs)
  | .error cause => Step.fail cause

namespace Finding

def withoutNames (fs : List Finding) : List Finding :=
  fs.filter fun f => f.name?.isNone

end Finding

namespace Node

def elementFault (element : Node) (cause : Fault) : Finding :=
  .contained element.describe element.line ("table row at line " ++ toString element.line) cause

/-- What the search for an element's name comes upon. -/
def searchFinding (element : Node) (line : Int) : Except Obstacle String → Finding
  | .ok name => .name name line
  | .error (.ambiguous why) => .ambiguous why line
  | .error (.fault cause) => element.elementFault cause

def rowFinding (cfg : Config) (field : Datum) (element : Node) : Finding :=
  match element.elementValue.behindIndirection with
  | row@(.compositeValue line _) => element.searchFinding line (row.rowName cfg field)
  | row => .ambiguous (.rowIsA row.describe) element.line

def keyFinding (cfg : Config) (element : Node) : Finding :=
  match element with
  | .keyedElement line key _ => element.searchFinding line (key.literalValue cfg)
  | _ => .ambiguous .keyIsIndex element.line

def valueFinding (cfg : Config) (element : Node) : Finding :=
  element.searchFinding element.line do
    Obstacle.orFault element.checkRowElement
    element.elementValue.literalValue cfg

/-- One finding per element of the collection that `source` leads to. -/
def collectionFindings (cfg : Config) (source : Node) (read : Node → Finding) :
    Except Fault (List Finding) :=
  match source.collection cfg with
  | .ok table => do return (← table.elementList?).map read
  | .error (.ambiguous why) => .ok [.ambiguous why source.line]
  | .error (.fault cause) => .error cause

def rangedFindings (cfg : Config) (line : Int) (name : Datum) (targets : Datum)
    (values : Sequence) : Except Fault (List Finding) := do
  if !values.truthy then return [.ambiguous (.notBoundByLoop name) line]
  match ← isRanged? targets name with
  | false => return [.ambiguous (.notBoundByLoop name) line]
  | true => do
      let source ← values.get? 0
      match ← isFirst? targets name with
      | true => source.collectionFindings cfg (keyFinding cfg)
      | false => source.collectionFindings cfg (valueFinding cfg)

def followedFindings (cfg : Config) (line : Int) (name : Datum) (declared : Node) :
    Except Fault (List Finding) :=
  match (Node.identifier line name declared).follow cfg with
  | .ok (.literal _ text) => do return [.name (← literalText? text) line]
  | .ok value => do return [.ambiguous (.nameHolds name (← value.kind?)) line]
  | .error (.ambiguous why) => .ok [.ambiguous why line]
  | .error (.fault cause) => .error cause

def identifierFindings (cfg : Config) (line : Int) (name : Datum) (declared : Node) :
    Except Fault (List Finding) :=
  match declared with
  | .assignment _ targets values true => rangedFindings cfg line name targets values
  | _ => followedFindings cfg line name declared

/-- What the first argument of a launch gives. -/
def nameFindings (cfg : Config) : Node → Except Fault (List Finding)
  | .literal line text => do return [.name (← literalText? text) line]
  | .memberAccess line target member => do
      match ← target.loopBinding cfg.maxReferenceDepth with
      | none => return [.ambiguous (.notReadFromLoop member) line]
      | some values => (← values.get? 0).collectionFindings cfg (rowFinding cfg member)
  | .identifier line name declared => identifierFindings cfg line name declared
  | .bare d => .error (.notAName d.typeName)
  | n => .ok [.ambiguous (.nameIsA n.describe) n.line]

def unnamedFindings (cfg : Config) (parent : String) (line : Int) : List Finding :=
  (if cfg.verbose then
    [.note ⟨.debug, "Unresolved subtest in " ++ parent ++ " at line " ++ toString line ++ ": " ++
      Ambiguity.noNameArgument.message⟩]
  else []) ++ [.ambiguous .noNameArgument line]

/-- What a verbose discovery tells of issues. -/
def unresolvedNotes (parent : String) (issues : List Issue) : List Finding :=
  issues.map fun issue =>
    .note ⟨.debug, "Unresolved subtest in " ++ parent ++ ": " ++ issue.text⟩

def launchedFindings (parent : String) (line : Int) (inside : String → List Finding)
    (names : List String) : List Finding :=
  names.flatMap fun name => .name (joinName parent name) line :: inside (joinName parent name)

/-- A launch whose name argument gave `fs`. -/
def namedFindings (cfg : Config) (parent : String) (line : Int) (inside : String → List Finding)
    (fs : List Finding) : List Finding :=
  let told := Resolution.ofFindings fs
  Finding.withoutNames fs ++
    if told.names.isEmpty then (if cfg.verbose then unresolvedNotes parent told.issues else [])
    else launchedFindings parent line inside told.names

def statementFault (parent : String) (statement : Node) (cause : Fault) : Finding :=
  .contained statement.describe statement.line
    ("statement in " ++ parent ++ " at line " ++ toString statement.line) cause

/-- What a statement contributes: what it gives, or the fault that it ended with. -/
def containedFindings (parent : String) (statement : Node) :
    Except Fault (List Finding) → List Finding
  | .ok fs => fs
  | .error cause => [statementFault parent statement cause]

mutual

def bodyFindings (cfg : Config) (parent : String) : Sequence → List Finding
  | .nodes statements => eachFindings cfg parent statements
  | .lone n =>
      match n.parts? with
      | none => [statementFault parent n (.notIterable n.describe)]
      | some parts =>
          parts.map fun part => statementFault parent part (.notAStatement part.describe)

def eachFindings (cfg : Config) (parent : String) : List Node → List Finding
  | [] => []
  | statement :: rest =>
      containedFindings parent statement (statementFindings cfg parent statement) ++
        eachFindings cfg parent rest

def statementFindings (cfg : Config) (parent : String) : Node → Except Fault (List Finding)
  | .bare value => .error (.notAStatement value.typeName)
  | .iteration _ _ body => .ok (bodyFindings cfg parent body)
  | .invocation line callee arguments =>
      if callee.isLaunch cfg then launchFindings cfg parent line arguments else .ok []
  | _ => .ok []

def launchFindings (cfg : Config) (parent : String) (line : Int) :
    Sequence → Except Fault (List Finding)
  | .nodes [] => .ok (unnamedFindings cfg parent line)
  | .nodes (argument :: rest) =>
      (argument.nameFindings cfg).map
        (namedFindings cfg parent line fun name => functionFindings cfg name rest)
  | .lone n =>
      if !(Sequence.lone n).truthy then .ok (unnamedFindings cfg parent line)
      else do
        let argument ← (Sequence.lone n).get? 0
        (argument.nameFindings cfg).map (namedFindings cfg parent line fun _ => [])

def functionFindings (cfg : Config) (parent : String) : List Node → List Finding
  | .closure _ body :: _ => bodyFindings cfg parent body
  | _ => []

end

end Node

end TestRoster
