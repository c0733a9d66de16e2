import TestRoster.Go.Ast
import TestRoster.Syntax.Node

/-!
Lexical scopes, and syntax trees whose identifiers know their declarations.

A scope is a stack of frames: the file, the function, then the loops and closures around the place
in question. A binding goes into the innermost frame and holds for what comes after it; the frames
of loops and closures end with them.
-/
namespace TestRoster.Go

/-- The names bound in one scope, the latest binding first. -/
abbrev Frame := List (String × Node)

/-- The frames around a place, the innermost first. -/
abbrev Scope := List Frame

namespace Scope

/-- Binds a name in the innermost frame. The blank name and the empty one are never bound. -/
def bind (declaration : Node) (scope : Scope) (name : String) : Scope :=
  if name = "" ∨ name = "_" then scope
  else
    match scope with
    | [] => [[(name, declaration)]]
    | frame :: outer => ((name, declaration) :: frame) :: outer

def bindAll (names : List String) (declaration : Node) (scope : Scope) : Scope :=
  names.foldl (bind declaration) scope

/-- The declaration of a name: the latest binding in the innermost frame that has one. -/
def lookup (scope : Scope) (name : String) : Option Node :=
  scope.findSome? (List.lookup name)

def parameterNode (p : Parameter) : Node :=
  .other p.line (.str "parameter") (.str p.text)

def bindParameters (ps : List Parameter) (scope : Scope) : Scope :=
  ps.foldl (fun s p => s.bind (parameterNode p) p.name) scope

end Scope

def bindingNode (line : Nat) (names : List String) (values : List Node) (ranged : Bool) : Node :=
  .assignment line (.list (names.map .str)) (.nodes values) ranged

mutual

def Expr.node (scope : Scope) : Expr → Node
  | .absent => .null
  | .name line text => .identifier line (.str text) ((scope.lookup text).getD .null)
  | .fieldName line text => .identifier line (.str text) .null
  | .literal line text => .literal line (.str text)
  | .call line callee arguments =>
      .invocation line (callee.node scope) (.nodes (Expr.nodes scope arguments))
  | .select line operand member => .memberAccess line (operand.node scope) (.str member)
  | .function line parameters body =>
      .closure line (.nodes (Stmt.nodes (Scope.bindParameters parameters ([] :: scope)) body))
  | .composite line elements => .compositeValue line (.nodes (Element.nodes scope elements))
  | .indirect line operand => .indirection line (operand.node scope)
  | .other line kind text => .other line (.str kind) (.str text)

def Expr.nodes (scope : Scope) : List Expr → List Node
  | [] => []
  | e :: es => e.node scope :: Expr.nodes scope es

def Element.node (scope : Scope) : Element → Node
  | .keyed line key value => .keyedElement line (key.node scope) (value.node scope)
  | .positional line value => .positionalElement line (value.node scope)
  | .other line kind text => .other line (.str kind) (.str text)

def Element.nodes (scope : Scope) : List Element → List Node
  | [] => []
  | e :: es => e.node scope :: Element.nodes scope es

/-- The node of a statement, and the scope after it. The values of a binding see only the bindings
before it. -/
def Stmt.node (scope : Scope) : Stmt → Node × Scope
  | .expression e => (e.node scope, scope)
  | .bind line names values =>
      let declaration := bindingNode line names (Expr.nodes scope values) false
      (declaration, scope.bindAll names declaration)
  | .loop line header body =>
      let (source, inner) := Clause.header scope ([] :: scope) .null header
      (.iteration line source (.nodes (Stmt.nodes inner body)), scope)
  | .other line kind text => (.other line (.str kind) (.str text), scope)

def Stmt.nodes (scope : Scope) : List Stmt → List Node
  | [] => []
  | s :: rest =>
      let (n, after) := s.node scope
      n :: Stmt.nodes after rest

/-- What a loop ranges over, and the scope of its body. A source is looked up outside the loop; of
several the last one counts. -/
def Clause.header (outside scope : Scope) (source : Node) : List Clause → Node × Scope
  | [] => (source, scope)
  | .range line names e declares :: rest =>
      let value := e.node outside
      let values := match e with
        | .absent => []
        | _ => [value]
      let declaration := bindingNode line names values true
      Clause.header outside (if declares then scope.bindAll names declaration else scope) value rest
  | .before s :: rest => Clause.header outside (s.node scope).2 source rest

end

def File.scope (file : File) : Scope :=
  file.bindings.foldl (fun scope s => (s.node scope).2) [[]]

def Function.node (scope : Scope) (f : Function) : Node :=
  .declaration f.line (.str f.name)
    (.nodes (Stmt.nodes (Scope.bindParameters f.parameters ([] :: scope)) f.body))
    ((f.receiver.map Datum.str).getD .null)

def File.declarations (file : File) : List Node :=
  file.functions.map (Function.node file.scope)

end TestRoster.Go
