import TestRoster.Discovery.Config
import TestRoster.Discovery.Report

/-!
Following identifiers to the values they were bound to.

Every identifier visited costs one of the depth given, so a reference ends; deeper following finds
more and changes nothing that was found.
-/
namespace TestRoster

/-- Why an expression leads to no value: it cannot be told, or reading the tree failed. -/
inductive Obstacle where
  | ambiguous (why : Ambiguity)
  | fault (cause : Fault)

def Obstacle.orFault {α : Type} (r : Except Fault α) : Except Obstacle α :=
  r.mapError .fault

namespace Node

/-- Follows identifiers from `n` to the first node that is none. One indirection is passed around
each bound value. -/
def followFrom : Nat → Node → Except Obstacle Node
  | depth, .identifier _ name declared =>
      match depth, declared with
      | 0, _ => .error (.ambiguous (.tooDeep name))
      | _ + 1, .bare .null => .error (.ambiguous (.undeclared name))
      | depth + 1, .assignment _ targets values ranged =>
          if ranged then .error (.ambiguous (.loopVariable name))
          else
            match valueFor? targets values ranged name with
            | .error cause => .error (.fault cause)
            | .ok (.bare .null) => .error (.ambiguous (.noSingleValue name))
            | .ok value => followFrom depth value.behindIndirection
      | _ + 1, d =>
          match d.kind? with
          | .ok kind => .error (.ambiguous (.declaredBy name kind))
          | .error cause => .error (.fault cause)
  | _, .bare .null => .error (.ambiguous .emptyExpression)
  | _, n => .ok n

/-- The value of an expression. One indirection is passed around it. -/
def follow (cfg : Config) (n : Node) : Except Obstacle Node :=
  n.behindIndirection.followFrom cfg.maxReferenceDepth

def collection (cfg : Config) (source : Node) : Except Obstacle Node := do
  match ← source.follow cfg with
  | table@(.compositeValue ..) => return table
  | n => throw (.ambiguous (.notATable (← Obstacle.orFault n.kind?)))

def literalValue (cfg : Config) (n : Node) : Except Obstacle String := do
  match ← n.follow cfg with
  | .literal _ text => Obstacle.orFault (literalText? text)
  | v => throw (.ambiguous (.nameIsA (← Obstacle.orFault v.kind?)))

/-- The collection of the range clause that bound `n` as its value variable. Copies of the variable
are followed. -/
def loopBinding : Nat → Node → Except Fault (Option Sequence)
  | depth + 1, .identifier _ name (.assignment _ targets values ranged) =>
      if ranged then
        match isSecondOf? targets name with
        | .error cause => .error cause
        | .ok second => if second && values.truthy then .ok (some values) else .ok none
      else
        match valueFor? targets values ranged name with
        | .error cause => .error cause
        | .ok value => loopBinding depth value
  | _, _ => .ok none

end Node

end TestRoster
