import TestRoster.Go.Grammar.Statement

/-!
Source files.

A file that does not parse is a tree all the same: what came before the first error, then a node of
kind `ERROR`, below a flagged root.
-/
namespace TestRoster.Go.Grammar
open Go.Parser

def packageClause : Parser Cst := do
  let t ← token "package"
  let _ ← token "identifier"
  node "package_clause" t.start []

def importSpec : Parser Cst := do
  let start ← position
  if (← isAt ".") || (← isAt "identifier") then
    let _ ← next
  if (← isAt "interpreted_string_literal") || (← isAt "raw_string_literal") then
    let _ ← next
    node "import_spec" start []
  else fail

def importDeclaration : Parser Cst := do
  let t ← token "import"
  let _ ← specifications [")"] importSpec
  node "import_declaration" t.start []

def functionDeclaration (r : Rules) : Parser Cst := do
  let t ← token "func"
  let receiver ←
    if ← isAt "(" then do pure [(← parameters r).under "receiver"] else pure []
  let name ← token "identifier"
  if ← isAt "[" then skipBrackets "[" "]"
  let ps ← signature r
  let body ←
    if (← isAt "\x7b") && !(← isAfterLine) then do pure [(← r.block).under "body"] else pure []
  let (kind, nameKind) :=
    if receiver.isEmpty then ("function_declaration", "identifier")
    else ("method_declaration", "field_identifier")
  node kind t.start
    (receiver ++ [(leaf nameKind name).under "name", ps.under "parameters"] ++ body)

/-- What may stand at the top of a file: a clause, a declaration or a statement. -/
def item (r : Rules) : Parser Cst := do
  match ← kind with
  | "package" => packageClause
  | "import" => importDeclaration
  | "func" =>
      if (← kindAfter) == "identifier" then functionDeclaration r
      else attempt (functionDeclaration r) r.statement
  | _ => r.statement

/-- The items of a file, and the position of the first error. -/
def items (r : Rules) : Nat → Input → List Cst → List Cst × Option Nat
  | 0, s, acc => (acc.reverse, some s.stop)
  | fuel + 1, s, acc =>
      match s.tokens with
      | [] => (acc.reverse, none)
      | _ =>
          match item r s with
          | .error position => (acc.reverse, some position)
          | .ok (c, after) =>
              match terminator [] after with
              | .error position => ((c :: acc).reverse, some position)
              | .ok (_, after) => items r fuel after (c :: acc)

end Grammar

def Cst.ofSource (src : Source) : Cst :=
  let tokens := Token.ofSource src
  let size := src.bytes.length
  let (children, error) :=
    Grammar.items (Grammar.rules (tokens.length + 1)) (tokens.length + 1) ⟨tokens, 0⟩ []
  match error with
  | none => .node { kind := "source_file", stop := size } children
  | some position =>
      .node { kind := "source_file", stop := size, flagged := true }
        (children ++
          [.node { kind := "ERROR", start := position, stop := size, flagged := true } []])

end TestRoster.Go
