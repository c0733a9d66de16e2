import TestRoster.Go.Grammar.Type

/-!
Expressions.

Operators bind in five levels. What follows an operand, such as a selector, an index, arguments or
the body of a composite literal, is taken step by step from left to right.
-/
namespace TestRoster.Go.Grammar
open Go.Parser

def literalKinds : List String :=
  ["int_literal", "float_literal", "imaginary_literal", "rune_literal", "raw_string_literal",
    "interpreted_string_literal"]

def constantNames : List String :=
  ["nil", "true", "false", "iota"]

/-- A value inside a composite literal, nested braces or an expression. -/
def literalElement (r : Rules) : Parser Cst := do
  let start ← position
  let inner ← if ← isAt "\x7b" then r.literalValue else r.expression .enclosed
  node "literal_element" start [inner]

/-- An element of a composite literal with or without key. -/
def keyedElement (r : Rules) : Parser Cst := do
  let first ← literalElement r
  if ← isAt ":" then
    let colon ← next
    let value ← literalElement r
    node "keyed_element" first.start [first.under "key", mark colon, value.under "value"]
  else return first

def literalValue (r : Rules) : Parser Cst := do
  let t ← token "\x7b"
  let elements ← listUntil "\x7d" (keyedElement r)
  node "literal_value" t.start elements

def compositeLiteral (r : Rules) (type : Cst) : Parser Cst := do
  let body ← literalValue r
  node "composite_literal" type.start [type.under "type", body.under "body"]

/-- A type in the place of an operand: it opens a composite literal or a conversion. -/
def typedOperand (r : Rules) (type : Cst) : Parser Cst := do
  if ← isAt "\x7b" then compositeLiteral r type
  else
    let _ ← token "("
    let operand ← r.expression .enclosed
    let _ ← accept ","
    let _ ← token ")"
    node "type_conversion_expression" type.start [type.under "type", operand.under "operand"]

/-- A function literal, or a function type that opens a conversion. -/
def functionOperand (r : Rules) : Parser Cst := do
  let t ← token "func"
  let ps ← signature r
  if ← isAt "\x7b" then
    let body ← r.block
    node "func_literal" t.start [ps.under "parameters", body.under "body"]
  else typedOperand r (← node "function_type" t.start [])

def parenthesized (r : Rules) : Parser Cst := do
  let t ← token "("
  attempt
    (do
      let inner ← r.expression .enclosed
      let _ ← token ")"
      node "parenthesized_expression" t.start [inner])
    (do
      let _ ← r.type
      let _ ← token ")"
      typedOperand r (← node "parenthesized_type" t.start []))

def operand (r : Rules) : Parser Cst := do
  let k ← kind
  if k == "identifier" then
    let t ← next
    return leaf (if constantNames.contains t.text then t.text else "identifier") t
  else if literalKinds.contains k then return leaf k (← next)
  else if k == "(" then parenthesized r
  else if k == "func" then functionOperand r
  else if ["[", "map", "chan", "struct", "interface"].contains k then typedOperand r (← type r)
  else fail

/-- An argument of a call: an expression, possibly spread, or a type. -/
def argument (r : Rules) : Parser Cst := do
  attempt
    (do
      let e ← r.expression .enclosed
      if ← accept "..." then node "variadic_argument" e.start [e] else return e)
    r.type

def arguments (r : Rules) : Parser Cst := do
  let t ← token "("
  let items ← listUntil ")" (argument r)
  node "argument_list" t.start items

def allocationArguments (r : Rules) : Parser Cst := do
  attempt
    (do
      let t ← token "("
      let first ← r.type
      let rest ←
        if ← accept "," then listUntil ")" (r.expression .enclosed)
        else do
          let _ ← token ")"
          pure []
      node "argument_list" t.start (first :: rest))
    (arguments r)

def isAllocation (text : String) : Bool :=
  text == "new" || text == "make"

def isTypeLike : Cst → Bool
  | .node i cs =>
      i.kind == "identifier" || i.kind == "type_instantiation_expression" ||
        ((i.kind == "selector_expression" || i.kind == "index_expression") &&
          (match cs with
          | c :: _ => c.kind == "identifier" || c.kind == "selector_expression"
          | [] => false))

def callOf (callee arguments : Cst) : Parser Cst :=
  node "call_expression" callee.start [callee.under "function", arguments.under "arguments"]

def sliceRest (r : Rules) (e : Cst) : Parser Cst := do
  let bound : Parser Unit := do
    if (← isAt ":") || (← isAt "]") then pure ()
    else
      let _ ← r.expression .enclosed
  let _ ← token ":"
  bound
  if ← accept ":" then bound
  let _ ← token "]"
  node "slice_expression" e.start [e.under "operand"]

/-- What stands in brackets after an operand: an index, a slice, or type arguments. -/
def bracketed (r : Rules) (e : Cst) : Parser Cst := do
  let _ ← token "["
  if ← isAt ":" then sliceRest r e
  else
    let (first, isType) ← attempt (do return (← r.expression .enclosed, false))
      (do return (← r.type, true))
    if ← isAt ":" then sliceRest r e
    else if (← isAt "]") && !isType then
      let _ ← next
      node "index_expression" e.start [e.under "operand", first.under "index"]
    else
      let _ ← accept ","
      let _ ← listUntil "]" r.type
      if ← isAt "(" then callOf e (← arguments r)
      else node "type_instantiation_expression" e.start [e.under "type"]

/-- What follows a point: a field, an asserted type, or the word of a type switch. -/
def selected (r : Rules) (e : Cst) : Parser Cst := do
  let _ ← token "."
  if ← accept "(" then
    if ← accept "type" then
      let _ ← token ")"
      node "type_switch_guard" e.start []
    else
      let _ ← r.type
      let _ ← token ")"
      node "type_assertion_expression" e.start [e.under "operand"]
  else
    let field ← token "identifier"
    node "selector_expression" e.start
      [e.under "operand", (leaf "field_identifier" field).under "field"]

def suffix (r : Rules) (ctx : Context) (allocates : Bool) (e : Cst) : Parser (Option Cst) := do
  if !(← ctx.continues) then return none
  else
    match ← kind with
    | "." => return some (← selected r e)
    | "[" => return some (← bracketed r e)
    | "(" =>
        let args ←
          if allocates && e.kind == "identifier" then allocationArguments r else arguments r
        return some (← callOf e args)
    | "\x7b" =>
        if ctx.literals && isTypeLike e then return some (← compositeLiteral r e) else return none
    | _ => return none

def primary (r : Rules) (ctx : Context) : Parser Cst := do
  let allocates := ((← peek?).map fun t => isAllocation t.text).getD false
  loop (suffix r ctx allocates) (← operand r)

def unaryOperators : List String :=
  ["+", "-", "!", "^", "*", "&", "<-"]

def unary (r : Rules) (ctx : Context) : Parser Cst := do
  if unaryOperators.contains (← kind) then
    let operator ← next
    let e ← r.unary ctx
    node "unary_expression" operator.start [(mark operator).under "operator", e.under "operand"]
  else primary r ctx

def binaryOperators : List (List String) :=
  [["*", "/", "%", "<<", ">>", "&", "&^"], ["+", "-", "|", "^"],
    ["==", "!=", "<", "<=", ">", ">="], ["&&"], ["||"]]

/-- Operands of a level joined by its operators, grouped from the left. -/
def chain (ctx : Context) (operators : List String) (p : Parser Cst) : Parser Cst := do
  loop (fun left => do
    if (← ctx.continues) && operators.contains (← kind) then
      let operator ← next
      let right ← p
      return some (← node "binary_expression" left.start
        [left.under "left", (mark operator).under "operator", right.under "right"])
    else return none) (← p)

def expression (r : Rules) (ctx : Context) : Parser Cst :=
  binaryOperators.foldl (fun p operators => chain ctx operators p) (unary r ctx)

end TestRoster.Go.Grammar
