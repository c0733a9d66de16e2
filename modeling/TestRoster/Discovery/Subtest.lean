import TestRoster.Discovery.Table

/-!
Subtests launched from the body of a test.

A launch is a call of the subtest method with a name and a function. Its name may stand for several,
one per row of a table; the function is looked into once for each. Every statement is looked into on
its own, and a fault in one of them is contained in it.
-/
namespace TestRoster

def joinName (parent segment : String) : String :=
  parent ++ "/" ++ segment

namespace Node

/-- The names that a variable of a range clause stands for: the keys or the values of the collection
that the clause ranges over. -/
def rangedNames (cfg : Config) (line : Int) (name : Datum) (targets : Datum) (values : Sequence) :
    Step Resolution := do
  if !values.truthy then return .skipped (.notBoundByLoop name) line
  match ← Step.ofReading (isRanged? targets name) with
  | false => return .skipped (.notBoundByLoop name) line
  | true => do
      let source ← Step.ofReading (values.get? 0)
      match ← Step.ofReading (isFirst? targets name) with
      | true => source.mapKeys cfg
      | false => source.elementValues cfg

/-- The name that an identifier stands for: the literal that it leads to. -/
def followedName (cfg : Config) (line : Int) (name : Datum) (declared : Node) : Step Resolution :=
  match (Node.identifier line name declared).follow cfg with
  | .ok (.literal _ text) => return .named (← Step.ofReading (literalText? text)) line
  | .ok value => return .skipped (.nameHolds name (← Step.ofReading value.kind?)) line
  | .error (.ambiguous why) => return .skipped why line
  | .error (.fault cause) => Step.fail cause

def identifierNames (cfg : Config) (line : Int) (name : Datum) (declared : Node) :
    Step Resolution :=
  match declared with
  | .assignment _ targets values true => rangedNames cfg line name targets values
  | _ => followedName cfg line name declared

def resolveName (cfg : Config) : Node → Step Resolution
  | .literal line text => return .named (← Step.ofReading (literalText? text)) line
  | .memberAccess line target member => do
      match ← Step.ofReading (target.loopBinding cfg.maxReferenceDepth) with
      | none => return .skipped (.notReadFromLoop member) line
      | some values => (← Step.ofReading (values.get? 0)).tableNames cfg member
  | .identifier line name declared => identifierNames cfg line name declared
  | .bare d => Step.fail (.notAName d.typeName)
  | n => return .skipped (.nameIsA n.describe) n.line

def isLaunch (cfg : Config) : Node → Bool
  | .memberAccess _ _ member => member.same (.str cfg.subtestMethod)
  | _ => false

def unnamedLaunch (cfg : Config) (parent : String) (line : Int) : Step Resolution := do
  if cfg.verbose then
    Step.say ⟨.debug, "Unresolved subtest in " ++ parent ++ " at line " ++ toString line ++ ": " ++
      Ambiguity.noNameArgument.message⟩
  return .skipped .noNameArgument line

def sayUnresolved (parent : String) : List Issue → Step Unit
  | [] => return ()
  | issue :: rest => do
      Step.say ⟨.debug, "Unresolved subtest in " ++ parent ++ ": " ++ issue.text⟩
      sayUnresolved parent rest

/-- One launch per name. `inside` finds the subtests of the function that is launched under a
name. -/
def launchEach (parent : String) (line : Int) (inside : String → Step Resolution) :
    Resolution → List String → Step Resolution
  | found, [] => return found
  | found, segment :: rest => do
      let name := joinName parent segment
      let found ← (found.add name line).extend <$> inside name
      launchEach parent line inside found rest

/-- A launch whose name argument stands for `segments`. -/
def launch (cfg : Config) (parent : String) (line : Int) (segments : Resolution)
    (inside : String → Step Resolution) : Step Resolution := do
  let found : Resolution := { issues := segments.issues }
  if segments.names.isEmpty then
    if cfg.verbose then sayUnresolved parent segments.issues
    return found
  else launchEach parent line inside found segments.names

def containStatement (cfg : Config) (parent : String) (statement : Node) (found : Resolution)
    (cause : Fault) : Step Resolution :=
  found.addIssue <$> Step.contain cfg statement.describe statement.line
    ("statement in " ++ parent ++ " at line " ++ toString statement.line) cause

/-- Parts of a bare value in the place of statements. None of them is one. -/
def rejectEach (cfg : Config) (parent : String) : Resolution → List Node → Step Resolution
  | found, [] => return found
  | found, part :: rest => do
      let found ← containStatement cfg parent part found (.notAStatement part.describe)
      rejectEach cfg parent found rest

mutual

/-- The subtests of a body, named below `parent`. -/
def resolve (cfg : Config) (parent : String) : Sequence → Step Resolution
  | .nodes statements => resolveEach cfg parent {} statements
  | .lone n =>
      match n.parts? with
      | none => containStatement cfg parent n {} (.notIterable n.describe)
      | some parts => rejectEach cfg parent {} parts

def resolveEach (cfg : Config) (parent : String) (found : Resolution) :
    List Node → Step Resolution
  | [] => return found
  | statement :: rest => do
      let found ← (found.extend <$> resolveStatement cfg parent statement).recover
        (containStatement cfg parent statement found)
      resolveEach cfg parent found rest

/-- A loop repeats its launches and adds nothing to their names. -/
def resolveStatement (cfg : Config) (parent : String) : Node → Step Resolution
  | .bare value => Step.fail (.notAStatement value.typeName)
  | .iteration _ _ body => resolve cfg parent body
  | .invocation line callee arguments =>
      if callee.isLaunch cfg then resolveLaunch cfg parent line arguments else return {}
  | _ => return {}

/-- A launch with these arguments: the name, then the function. -/
def resolveLaunch (cfg : Config) (parent : String) (line : Int) : Sequence → Step Resolution
  | .nodes [] => unnamedLaunch cfg parent line
  | .nodes (argument :: rest) => do
      let segments ← argument.resolveName cfg
      launch cfg parent line segments fun name => resolveFunction cfg name rest
  | .lone n => do
      if !(Sequence.lone n).truthy then unnamedLaunch cfg parent line
      else
        let argument ← Step.ofReading ((Sequence.lone n).get? 0)
        let segments ← argument.resolveName cfg
        launch cfg parent line segments fun _ => return {}

/-- The subtests of the function that is launched under the name `parent`. -/
def resolveFunction (cfg : Config) (parent : String) : List Node → Step Resolution
  | .closure _ body :: _ => resolve cfg parent body
  | _ => return {}

end

end Node

end TestRoster
