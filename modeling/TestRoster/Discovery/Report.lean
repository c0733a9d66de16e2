import TestRoster.Syntax.Node

/-!
What a discovery reports: names with their lines, issues for what gave no name, and log records.

Expected failures are issues of a report. A fault is an issue too where it is contained.
-/
namespace TestRoster

inductive Ambiguity where
  | tooDeep (name : Datum)
  | undeclared (name : Datum)
  | declaredBy (name : Datum) (kind : String)
  | loopVariable (name : Datum)
  | noSingleValue (name : Datum)
  | emptyExpression
  | notATable (kind : String)
  | rowIsA (kind : String)
  | nameIsA (kind : String)
  | namePositionHolds (kind : String)
  | noNameField (field : Datum)
  | keyIsIndex
  | notReadFromLoop (member : Datum)
  | notBoundByLoop (name : Datum)
  | nameHolds (name : Datum) (kind : String)
  | noNameArgument

def Ambiguity.message : Ambiguity → String
  | .tooDeep name => "reference chain through '" ++ name.text ++ "' is too deep"
  | .undeclared name => "'" ++ name.text ++ "' is not declared in this file"
  | .declaredBy name kind => "'" ++ name.text ++ "' is declared by a " ++ kind
  | .loopVariable name => "'" ++ name.text ++ "' is itself a loop variable"
  | .noSingleValue name => "'" ++ name.text ++ "' has no single assigned value"
  | .emptyExpression => "expression is empty"
  | .notATable kind => "iterated value is a " ++ kind ++ ", not a literal table"
  | .rowIsA kind => "row is a " ++ kind
  | .nameIsA kind => "name is a " ++ kind
  | .namePositionHolds kind => "name position holds a " ++ kind
  | .noNameField field => "row has no '" ++ field.text ++ "' field"
  | .keyIsIndex => "range key of an unkeyed literal is an index"
  | .notReadFromLoop member => "'" ++ member.text ++ "' is not read from a loop variable"
  | .notBoundByLoop name => "'" ++ name.text ++ "' is not bound by this loop"
  | .nameHolds name kind => "'" ++ name.text ++ "' holds a " ++ kind
  | .noNameArgument => "subtest launch has no name argument"

inductive Reason where
  | ambiguous (why : Ambiguity)
  | unexpectedShape (fault : Fault)

def Reason.kind : Reason → String
  | .ambiguous _ => "ambiguous"
  | .unexpectedShape _ => "unexpected_shape"

def Reason.message : Reason → String
  | .ambiguous why => why.message
  | .unexpectedShape fault => fault.message

structure Issue where
  reason : Reason
  line : Int

def Issue.text (i : Issue) : String :=
  (if i.line = 0 then "" else "line " ++ toString i.line ++ ": ") ++
    i.reason.kind ++ ": " ++ i.reason.message

inductive Level where
  | debug
  | warning
  deriving DecidableEq, Repr

structure LogRecord where
  level : Level
  text : String
  deriving DecidableEq, Repr

/-- The names that one step resolved, with their lines, and the issues that it skipped over. -/
structure Resolution where
  names : List String := []
  lines : List Int := []
  issues : List Issue := []

namespace Resolution

def add (r : Resolution) (name : String) (line : Int) : Resolution :=
  { r with names := r.names ++ [name], lines := r.lines ++ [line] }

def addIssue (r : Resolution) (issue : Issue) : Resolution :=
  { r with issues := r.issues ++ [issue] }

def named (name : String) (line : Int) : Resolution :=
  add {} name line

def skipped (why : Ambiguity) (line : Int) : Resolution :=
  addIssue {} ⟨.ambiguous why, line⟩

def extend (r other : Resolution) : Resolution where
  names := r.names ++ other.names
  lines := r.lines ++ other.lines
  issues := r.issues ++ other.issues

end Resolution

end TestRoster
