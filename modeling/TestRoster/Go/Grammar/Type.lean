import TestRoster.Go.Parser

/-!
Types and parameter lists.
-/
namespace TestRoster.Go.Grammar
open Go.Parser

def typeArguments (r : Rules) : Parser Unit := do
  let _ ← token "["
  let _ ← listUntil "]" r.type

/-- A named type, possibly of a package and possibly generic. -/
def typeName (r : Rules) : Parser Cst := do
  let t ← token "identifier"
  let named ←
    if (← isAt ".") && (← kindAfter) == "identifier" then do
      let _ ← next
      let _ ← next
      node "qualified_type" t.start []
    else pure (leaf "type_identifier" t)
  if (← isAt "[") && !(← isAfterLine) then
    attempt
      (do
        typeArguments r
        node "generic_type" t.start [named])
      (pure named)
  else return named

def bracketType (r : Rules) : Parser Cst := do
  let t ← token "["
  if ← accept "]" then
    let _ ← r.type
    node "slice_type" t.start []
  else if ← accept "..." then
    let _ ← token "]"
    let _ ← r.type
    node "implicit_length_array_type" t.start []
  else
    let _ ← r.expression .enclosed
    let _ ← token "]"
    let _ ← r.type
    node "array_type" t.start []

/-- Whether a type may start at the next token, on the same line. -/
def typeFollows : Parser Bool := do
  if ← isAfterLine then return false
  else if ← isAt "<-" then return (← kindAfter) == "chan"
  else
    return ["identifier", "*", "(", "[", "map", "chan", "func", "struct", "interface"].contains
      (← kind)

/-- An entry of a parameter list, before it is known whether a lone name is a parameter or a
type. -/
structure Entry where
  name : Option Token
  type : Cst
  variadic : Bool
  start : Nat

def entry (r : Rules) : Parser Entry := do
  let start ← position
  let variadic (name : Option Token) : Parser Entry := do
    let _ ← token "..."
    return ⟨name, ← r.type, true, start⟩
  let named : Parser Entry := do
    let t ← token "identifier"
    if ← isAt "..." then variadic (some t)
    else
      let type ← r.type
      if (← isAt ",") || (← isAt ")") then return ⟨some t, type, false, start⟩ else fail
  if ← isAt "..." then variadic none
  else attempt named (do return ⟨none, ← r.type, false, start⟩)

def declarationOf (names : List Cst) (e : Entry) : Cst :=
  let start := (names.head?.map (·.start)).getD e.start
  let all := names ++ (e.name.map fun t => leaf "identifier" t).toList
  let kind := if e.variadic then "variadic_parameter_declaration" else "parameter_declaration"
  .node { kind := kind, start := start, stop := e.type.info.stop }
    (all.map (Cst.under "name") ++ [e.type.under "type"])

/-- Declarations of parameters. If any entry has a name, lone names before it share its type. -/
def grouped (waiting : List Cst) : List Entry → List Cst
  | [] =>
      waiting.map fun c =>
        .node { c.info with kind := "parameter_declaration" } [c.under "type"]
  | e :: rest =>
      match e.name, e.variadic with
      | none, false => grouped (waiting ++ [e.type]) rest
      | _, _ =>
          let names := waiting.map fun c => .node { c.info with kind := "identifier" } []
          declarationOf names e :: grouped [] rest

def parameters (r : Rules) : Parser Cst := do
  let t ← token "("
  let entries ← listUntil ")" (entry r)
  let declarations :=
    if entries.any (·.name.isSome) then grouped [] entries
    else entries.map (declarationOf [])
  node "parameter_list" t.start declarations

def signature (r : Rules) : Parser Cst := do
  let ps ← parameters r
  if ← typeFollows then
    if ← isAt "(" then
      let _ ← parameters r
    else
      let _ ← r.type
  return ps

def union (r : Rules) : Parser Unit := do
  let _ ← separated "|" r.type

/-- A field of a struct: names with their type, or an embedded type. -/
def structField (r : Rules) : Parser Unit := do
  let tail : Parser Unit := do
    if ← isAfterLine then pure ()
    else if (← isAt "interpreted_string_literal") || (← isAt "raw_string_literal") then
      let _ ← next
    terminator ["\x7d"]
  attempt
    (do
      let _ ← separated "," (token "identifier")
      let _ ← r.type
      tail)
    (do
      let _ ← r.type
      tail)

def interfaceElement (r : Rules) : Parser Unit := do
  attempt
    (do
      let _ ← token "identifier"
      let _ ← signature r
      terminator ["\x7d"])
    (do
      union r
      terminator ["\x7d"])

def members (member : Parser Unit) : Parser Unit := do
  let _ ← token "\x7b"
  let _ ← loop (fun (_ : Unit) => do
    if ← isAt "\x7d" then return none
    else
      member
      return some ()) ()
  let _ ← token "\x7d"

def type (r : Rules) : Parser Cst := do
  let start ← position
  match ← kind with
  | "identifier" => typeName r
  | "[" => bracketType r
  | "*" =>
      let _ ← next
      let _ ← r.type
      node "pointer_type" start []
  | "~" =>
      let _ ← next
      let _ ← r.type
      node "negated_type" start []
  | "(" =>
      let _ ← next
      let _ ← r.type
      let _ ← token ")"
      node "parenthesized_type" start []
  | "map" =>
      let _ ← next
      let _ ← token "["
      let _ ← r.type
      let _ ← token "]"
      let _ ← r.type
      node "map_type" start []
  | "chan" =>
      let _ ← next
      let _ ← accept "<-"
      let _ ← r.type
      node "channel_type" start []
  | "<-" =>
      let _ ← next
      let _ ← token "chan"
      let _ ← r.type
      node "channel_type" start []
  | "func" =>
      let _ ← next
      let _ ← signature r
      node "function_type" start []
  | "struct" =>
      let _ ← next
      members (structField r)
      node "struct_type" start []
  | "interface" =>
      let _ ← next
      members (interfaceElement r)
      node "interface_type" start []
  | _ => fail

end TestRoster.Go.Grammar
