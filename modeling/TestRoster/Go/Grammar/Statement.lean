import TestRoster.Go.Grammar.Expression

/-!
Statements and declarations.

Statements that bind nothing are nodes without children: their extent is all that is asked of them.
-/
namespace TestRoster.Go.Grammar
open Go.Parser

def assignmentOperators : List String :=
  ["=", "+=", "-=", "*=", "/=", "%=", "&=", "|=", "^=", "<<=", ">>=", "&^="]

def expressionList (items : List Cst) : Cst :=
  .node
    { kind := "expression_list"
      start := (items.head?.map (·.start)).getD 0
      stop := (items.getLast?.map (·.info.stop)).getD 0 } items

def expressions (r : Rules) (ctx : Context) : Parser Cst := do
  return expressionList (← separated "," (r.expression ctx))

def afterLeft (r : Rules) (ctx : Context) (left : Cst) : Parser Cst := do
  let single : Parser Cst :=
    match left.children with
    | [e] => node "expression_statement" left.start [e]
    | _ => fail
  if !(← ctx.continues) then single
  else
    let k ← kind
    if k == ":=" then
      let operator ← next
      let right ← expressions r ctx
      node "short_var_declaration" left.start
        [left.under "left", mark operator, right.under "right"]
    else if assignmentOperators.contains k then
      let operator ← next
      let right ← expressions r ctx
      node "assignment_statement" left.start
        [left.under "left", (mark operator).under "operator", right.under "right"]
    else if k == "++" then
      let _ ← next
      node "inc_statement" left.start left.children
    else if k == "--" then
      let _ ← next
      node "dec_statement" left.start left.children
    else if k == "<-" then
      let _ ← next
      let _ ← r.expression ctx
      node "send_statement" left.start []
    else single

def simple (r : Rules) (ctx : Context) : Parser Cst := do
  afterLeft r ctx (← expressions r ctx)

/-- Specifications after the keyword of a declaration: one, or any number in parentheses, each up to
a terminator. Before one of `closing` none is needed. -/
def specifications (closing : List String) (spec : Parser Cst) : Parser (List Cst × Bool) := do
  if ← accept "(" then
    let specs ← loop (fun specs => do
      if ← isAt ")" then return none
      else
        let s ← spec
        terminator closing
        return some (s :: specs)) []
    let _ ← token ")"
    return (specs.reverse, true)
  else return ([← spec], false)

/-- The names that a specification declares. A constant's commas stand under the same field. -/
def specNames (commas : Bool) : Parser (List Cst) := do
  let first ← token "identifier"
  let names ← loop (fun names => do
    if ← isAt "," then
      let comma ← next
      let name ← token "identifier"
      let separator := if commas then [(mark comma).under "name"] else []
      return some (names ++ separator ++ [(leaf "identifier" name).under "name"])
    else return none) [(leaf "identifier" first).under "name"]
  return names

def specValues (r : Rules) : Parser (List Cst) := do
  if (← isAt "=") && !(← isAfterLine) then
    let _ ← next
    return [(← expressions r .plain).under "value"]
  else return []

/-- Names with a type, values or both. -/
def varSpec (r : Rules) : Parser Cst := do
  let start ← position
  let names ← specNames false
  let typed ← if ← isAt "=" then pure false else typeFollows
  if typed then
    let _ ← r.type
  let values ← specValues r
  if !typed && values.isEmpty then fail
  node "var_spec" start (names ++ values)

/-- Names, possibly with values, and then possibly with a type. -/
def constSpec (r : Rules) : Parser Cst := do
  let start ← position
  let names ← specNames true
  let typed ← if ← isAt "=" then pure false else typeFollows
  if typed then
    let _ ← r.type
  let values ← specValues r
  if typed && values.isEmpty then fail
  node "const_spec" start (names ++ values)

def varDeclaration (r : Rules) : Parser Cst := do
  let t ← token "var"
  let start ← position
  let (specs, listed) ← specifications [] (varSpec r)
  let children ← if listed then do pure [← node "var_spec_list" start specs] else pure specs
  node "var_declaration" t.start children

def constDeclaration (r : Rules) : Parser Cst := do
  let t ← token "const"
  let (specs, _) ← specifications [] (constSpec r)
  node "const_declaration" t.start specs

/-- A declared type, possibly with type parameters or as another name for a type. -/
def typeSpec (r : Rules) : Parser Cst := do
  let t ← token "identifier"
  let right : Parser Cst := do
    let _ ← accept "="
    let _ ← r.type
    node "type_spec" t.start []
  attempt right
    (do
      skipBrackets "[" "]"
      right)

def typeDeclaration (r : Rules) : Parser Cst := do
  let t ← token "type"
  let _ ← specifications [] (typeSpec r)
  node "type_declaration" t.start []

def statementsUntil (r : Rules) (closing : List String) : Parser (List Cst) := do
  let items ← loop (fun items => do
    if closing.contains (← kind) then return none
    else
      let s ← r.statement
      terminator closing
      return some (s :: items)) []
  return items.reverse

def block (r : Rules) : Parser Cst := do
  let t ← token "\x7b"
  let start ← position
  let items ← statementsUntil r ["\x7d"]
  let inner ←
    if items.isEmpty then pure [] else do
      let list ← node "statement_list" start items
      pure [list]
  let _ ← token "\x7d"
  node "block" t.start inner

def loopClause (r : Rules) (ctx : Context) : Parser (List Cst) := do
  let start ← position
  let range (head : List Cst) : Parser (List Cst) := do
    let _ ← token "range"
    let right ← r.expression ctx
    return [← node "range_clause" start (head ++ [right.under "right"])]
  let clause (initializer : List Cst) : Parser (List Cst) := do
    let _ ← token ";"
    if !(← isAt ";") then
      let _ ← r.expression ctx
    let _ ← token ";"
    if !(← isAt "\x7b") then
      let _ ← simple r ctx
    return [← node "for_clause" start initializer]
  if ← isAt "\x7b" then return []
  else if ← isAt "range" then range []
  else if ← isAt ";" then clause []
  else
    let left ← expressions r ctx
    if ((← isAt ":=") || (← isAt "=")) && (← kindAfter) == "range" then
      let operator ← next
      range [left.under "left", mark operator]
    else
      let first ← afterLeft r ctx left
      if ← isAt ";" then clause [first.under "initializer"]
      else if first.kind == "expression_statement" then return first.children
      else fail

/-- Whether a statement can end before the next token. -/
def statementEnds : Parser Bool := do
  return (← isAfterLine) || [";", "\x7d", "case", "default"].contains (← kind)

/-- A statement with a header before its body. A brace in the header opens the body; it opens a
literal only where no statement comes to an end otherwise. -/
def withHeader (statement : Context → Parser Cst) : Parser Cst :=
  attempt
    (do
      let s ← statement .header
      if ← statementEnds then return s else fail)
    (statement .plain)

def forStatement (r : Rules) : Parser Cst :=
  withHeader fun ctx => do
    let t ← token "for"
    let clause ← loopClause r ctx
    let body ← r.block
    node "for_statement" t.start (clause ++ [body.under "body"])

/-- A header of up to two parts with a semicolon between them, before an opening brace. -/
def branchHeader (r : Rules) (ctx : Context) : Parser (List Cst) := do
  if ← isAt "\x7b" then return []
  else
    let first ← simple r ctx
    if ← accept ";" then
      if ← isAt "\x7b" then return [first] else return [first, ← simple r ctx]
    else return [first]

def ifStatement (r : Rules) : Parser Cst :=
  withHeader fun ctx => do
    let t ← token "if"
    let header ← branchHeader r ctx
    if header.isEmpty then fail
    let _ ← r.block
    if (← isAt "else") && !(← isAfterLine) then
      let _ ← next
      if ← isAt "if" then
        let _ ← r.statement
      else
        let _ ← r.block
    node "if_statement" t.start []

def branches (r : Rules) (label : Parser Unit) : Parser Unit := do
  let _ ← token "\x7b"
  let _ ← loop (fun (_ : Unit) => do
    if ← isAt "\x7d" then return none
    else
      if !(← accept "default") then
        let _ ← token "case"
        label
      let _ ← token ":"
      let _ ← statementsUntil r ["case", "default", "\x7d"]
      return some ()) ()
  let _ ← token "\x7d"

mutual

def asksType : Cst → Bool
  | .node i cs => i.kind == "type_switch_guard" || anyAsksType cs

def anyAsksType : List Cst → Bool
  | [] => false
  | c :: cs => asksType c || anyAsksType cs

end

def switchStatement (r : Rules) : Parser Cst :=
  withHeader fun ctx => do
    let t ← token "switch"
    let header ← branchHeader r ctx
    branches r do
      let _ ← separated "," (argument r)
    let onType := (header.getLast?.map asksType).getD false
    node (if onType then "type_switch_statement" else "expression_switch_statement") t.start []

def selectStatement (r : Rules) : Parser Cst := do
  let t ← token "select"
  branches r do
    let _ ← simple r .enclosed
  node "select_statement" t.start []

def withCall (r : Rules) (kind : String) : Parser Cst := do
  let t ← next
  let e ← r.expression .plain
  node kind t.start [e]

def jump (kind : String) : Parser Cst := do
  let t ← next
  if (← isAt "identifier") && !(← isAfterLine) then
    let _ ← next
  node kind t.start []

def returnStatement (r : Rules) : Parser Cst := do
  let t ← token "return"
  if !(← isAfterLine) && !(["\x7d", ";"].contains (← kind)) then
    let _ ← expressions r .plain
  node "return_statement" t.start []

/-- A label with its statement. At the end of a block it may stand alone. -/
def labeledStatement (r : Rules) : Parser Cst := do
  let t ← token "identifier"
  let _ ← token ":"
  if !(["\x7d", "case", "default"].contains (← kind)) then
    let _ ← r.statement
  node "labeled_statement" t.start []

def statement (r : Rules) : Parser Cst := do
  match ← kind with
  | "var" => varDeclaration r
  | "const" => constDeclaration r
  | "type" => typeDeclaration r
  | "return" => returnStatement r
  | "go" => withCall r "go_statement"
  | "defer" => withCall r "defer_statement"
  | "if" => ifStatement r
  | "for" => forStatement r
  | "switch" => switchStatement r
  | "select" => selectStatement r
  | "break" => jump "break_statement"
  | "continue" => jump "continue_statement"
  | "goto" => jump "goto_statement"
  | "fallthrough" => do return leaf "fallthrough_statement" (← next)
  | "\x7b" => r.block
  | ";" => do return leaf "empty_statement" (← next)
  | "identifier" => if (← kindAfter) == ":" then labeledStatement r else simple r .plain
  | _ => simple r .plain

/-- All rules, with those of the level below for what they contain. -/
def level (r : Rules) : Rules where
  type := type r
  unary := unary r
  expression := expression r
  literalValue := literalValue r
  block := block r
  statement := statement r

def rules : Nat → Rules
  | 0 => .bottom
  | n + 1 => level (rules n)

end TestRoster.Go.Grammar
