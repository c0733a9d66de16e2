import TestRoster.Go.Ast
import TestRoster.Go.Cst
import TestRoster.Go.Source
import TestRoster.Text.Blank

/-!
Abstract syntax read off a concrete tree.

A node can be asked for in several roles: as an expression, a statement, a block, an element, a
parameter list and so on. `Reading` holds the answers for all roles, and the answers of a node are
put together from the answers of its children alone. Comments and mere tokens are no parts of a
node.
-/
namespace TestRoster.Go

structure Reading where
  info : Info
  /-- The node as an expression. -/
  expression : Expr
  /-- The parts as expressions: a list of expressions or arguments. -/
  expressions : List Expr
  /-- The parts' infos. -/
  partInfos : List Info
  /-- The node as an element of a composite literal. -/
  element : Element
  /-- The parts as elements: a literal value. -/
  elements : List Element
  /-- The names declared by the node as a parameter declaration. -/
  declared : List Parameter
  /-- The parts as parameter declarations: a parameter list. -/
  parameters : List Parameter
  /-- The text of the type, for a parameter declaration. -/
  type : Option String
  /-- The first type among the parts, for a receiver list. -/
  partType : Option String
  /-- The node as a specification of package-level or local values. -/
  spec : Stmt
  /-- The specifications among the parts, lists of them opened. -/
  specs : List Stmt
  /-- The node as a statement. One node can hold several statements. -/
  statements : List Stmt
  /-- The parts as statements. -/
  partStatements : List Stmt
  /-- The parts as statements, lists of statements opened: a block. -/
  block : List Stmt
  /-- The node as a part of a loop's header. -/
  clauses : List Clause
  /-- The node as a function or method declaration. -/
  function : Option Function

namespace Reading

def literalKinds : List String :=
  ["interpreted_string_literal", "raw_string_literal", "int_literal", "float_literal",
    "imaginary_literal", "rune_literal"]

/-- The most characters of a text that is kept for reports. -/
def textLimit : Nat := 80

def shorten (s : String) : String :=
  let cs := s.toList
  if textLimit < cs.length then String.ofList (cs.take textLimit ++ "...".toList) else s

/-- The name of a receiver's type, without pointer and type parameters. -/
def receiverName (type : String) : String :=
  String.ofList (trim ((type.toList.dropWhile (· == '*')).takeWhile (· != '[')))

def named (children : List Reading) : List Reading :=
  children.filter (·.info.isNamed)

def at? (children : List Reading) (field : String) : Option Reading :=
  children.find? (·.info.field == some field)

def allAt (children : List Reading) (field : String) : List Reading :=
  children.filter (·.info.field == some field)

def hasToken (children : List Reading) (kind : String) : Bool :=
  children.any fun c => c.info.anonymous && c.info.kind == kind

def expressionsAt (children : List Reading) (field : String) : List Expr :=
  ((at? children field).map (·.expressions)).getD []

def blockAt (children : List Reading) (field : String) : List Stmt :=
  ((at? children field).map (·.block)).getD []

def parametersAt (children : List Reading) (field : String) : List Parameter :=
  ((at? children field).map (·.parameters)).getD []

def expressionAt (children : List Reading) (field : String) : Expr :=
  ((at? children field).map (·.expression)).getD .absent

section

variable (src : Source) (i : Info) (children : List Reading)

def textOf (i : Info) : String :=
  src.text i.start i.stop

def lineOf (i : Info) : Nat :=
  src.line i.start

/-- The text of the child under a field name, or none. -/
def textAt (field : String) : String :=
  ((at? children field).map fun c => textOf src c.info).getD ""

def partTextsAt (field : String) : List String :=
  ((at? children field).map fun c => c.partInfos.map (textOf src)).getD []

def otherText : String :=
  shorten (textOf src i)

def elementsOf : List Element :=
  (named children).map (·.element)

def expressionOf : Expr :=
  let line := lineOf src i
  let other := Expr.other line i.kind (otherText src i)
  if i.kind == "parenthesized_expression" || i.kind == "literal_element" then
    match named children with
    | inner :: _ => inner.expression
    | [] => other
  else if i.kind == "identifier" then .name line (textOf src i)
  else if i.kind == "field_identifier" then .fieldName line (textOf src i)
  else if literalKinds.contains i.kind then .literal line (textOf src i)
  else if i.kind == "call_expression" then
    .call line (expressionAt children "function") (expressionsAt children "arguments")
  else if i.kind == "selector_expression" then
    .select line (expressionAt children "operand") (textAt src children "field")
  else if i.kind == "func_literal" then
    .function line (parametersAt children "parameters") (blockAt children "body")
  else if i.kind == "composite_literal" then
    .composite line (((at? children "body").map (·.elements)).getD [])
  else if i.kind == "literal_value" then .composite line (elementsOf children)
  else if i.kind == "unary_expression" then
    match at? children "operator", at? children "operand" with
    | some operator, some operand =>
        if operator.info.kind == "&" || operator.info.kind == "*" then
          .indirect line operand.expression
        else other
    | _, _ => other
  else other

def elementOf (expression : Expr) : Element :=
  let line := lineOf src i
  if i.kind == "keyed_element" then
    match named children with
    | [key, value] => .keyed line key.expression value.expression
    | _ => .other line i.kind (otherText src i)
  else .positional line expression

def declaredOf : List Parameter :=
  (allAt children "name").map fun n => ⟨lineOf src n.info, textOf src n.info, textOf src i⟩

def specOf : Stmt :=
  .bind (lineOf src i) ((allAt children "name").map fun n => textOf src n.info)
    (expressionsAt children "value")

def specsOf : List Stmt :=
  (named children).flatMap fun c =>
    if c.info.kind == "var_spec" || c.info.kind == "const_spec" then [c.spec]
    else if c.info.kind == "var_spec_list" || c.info.kind == "const_spec_list" then c.specs
    else []

/-- An assignment counts as a binding if it is plain and all of its left side are names. -/
def assignmentOf (other : Stmt) : Stmt :=
  let left := ((at? children "left").map (·.partInfos)).getD []
  if (at? children "operator").any (·.info.kind == "=") && left.all (·.kind == "identifier") then
    .bind (lineOf src i) (left.map (textOf src)) (expressionsAt children "right")
  else other

def statementsOf : List Stmt :=
  let line := lineOf src i
  let other := Stmt.other line i.kind (otherText src i)
  if i.kind == "expression_statement" then (named children).map fun c => .expression c.expression
  else if i.kind == "for_statement" then
    [.loop line ((named children).flatMap (·.clauses)) (blockAt children "body")]
  else if i.kind == "short_var_declaration" then
    [.bind line (partTextsAt src children "left") (expressionsAt children "right")]
  else if i.kind == "var_declaration" || i.kind == "const_declaration" then specsOf children
  else if i.kind == "assignment_statement" then [assignmentOf src i children other]
  else [other]

def clausesOf : List Clause :=
  if i.kind == "range_clause" then
    [.range (lineOf src i) (partTextsAt src children "left") (expressionAt children "right")
      (hasToken children ":=")]
  else if i.kind == "for_clause" then
    (((at? children "initializer").map (·.statements)).getD []).map .before
  else []

def functionOf : Option Function :=
  let line := lineOf src i
  let name := textAt src children "name"
  let parameters := parametersAt children "parameters"
  let body := blockAt children "body"
  if i.kind == "function_declaration" then some ⟨line, name, none, parameters, body⟩
  else if i.kind == "method_declaration" then
    let receiver := ((at? children "receiver").bind (·.partType)).map receiverName
    some ⟨line, name, receiver, parametersAt children "receiver" ++ parameters, body⟩
  else none

def combine : Reading :=
  let expression := expressionOf src i children
  let parts := named children
  { info := i
    expression := expression
    expressions := parts.map (·.expression)
    partInfos := parts.map (·.info)
    element := elementOf src i children expression
    elements := elementsOf children
    declared := declaredOf src i children
    parameters := parts.flatMap (·.declared)
    type := (at? children "type").map fun t => textOf src t.info
    partType := parts.findSome? (·.type)
    spec := specOf src i children
    specs := specsOf children
    statements := statementsOf src i children
    partStatements := parts.flatMap (·.statements)
    block := parts.flatMap fun c =>
      if c.info.kind == "statement_list" then c.partStatements else c.statements
    clauses := clausesOf src i children
    function := functionOf src i children }

end

mutual

def ofCst (src : Source) : Cst → Reading
  | .node i cs => combine src i (ofCsts src cs)

def ofCsts (src : Source) : List Cst → List Reading
  | [] => []
  | c :: cs => ofCst src c :: ofCsts src cs

end

end Reading

def File.ofCst (src : Source) (root : Cst) : File :=
  let parts := Reading.named (Reading.ofCsts src root.children)
  { bindings := parts.flatMap fun c =>
      if c.info.kind == "var_declaration" || c.info.kind == "const_declaration" then c.specs else []
    functions := parts.filterMap (·.function) }

end TestRoster.Go
