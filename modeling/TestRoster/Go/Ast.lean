/-!
Abstract syntax of Go, as far as names of tests depend on it.

Everything else is kept as `other`, with the name of its grammar symbol and the start of its text.
Names are not resolved yet.
-/
namespace TestRoster.Go

/-- A name that a parameter list declares, with the text of its whole declaration. -/
structure Parameter where
  line : Nat
  name : String
  text : String
  deriving DecidableEq, Repr

mutual

inductive Expr where
  /-- No expression where one belongs. -/
  | absent
  /-- A name in scope. -/
  | name (line : Nat) (text : String)
  /-- The name of a field, which no scope binds. -/
  | fieldName (line : Nat) (text : String)
  | literal (line : Nat) (text : String)
  | call (line : Nat) (callee : Expr) (arguments : List Expr)
  | select (line : Nat) (operand : Expr) (member : String)
  /-- A function literal. -/
  | function (line : Nat) (parameters : List Parameter) (body : List Stmt)
  | composite (line : Nat) (elements : List Element)
  /-- An address or dereference operator. -/
  | indirect (line : Nat) (operand : Expr)
  | other (line : Nat) (kind text : String)

inductive Element where
  | keyed (line : Nat) (key value : Expr)
  | positional (line : Nat) (value : Expr)
  /-- An element with a colon that is no pair. -/
  | other (line : Nat) (kind text : String)

inductive Stmt where
  | expression (e : Expr)
  /-- A declaration or assignment of plain names. -/
  | bind (line : Nat) (names : List String) (values : List Expr)
  | loop (line : Nat) (header : List Clause) (body : List Stmt)
  | other (line : Nat) (kind text : String)

inductive Clause where
  /-- Ranges over `source`. A declaring clause binds its names. -/
  | range (line : Nat) (names : List String) (source : Expr) (declares : Bool)
  /-- Runs before the loop. -/
  | before (s : Stmt)

end

instance : Inhabited Expr := ⟨.absent⟩

/-- A function or method declaration. The parameters include the receiver. -/
structure Function where
  line : Nat
  name : String
  receiver : Option String
  parameters : List Parameter
  body : List Stmt

/-- What a source file declares: the package-level bindings and the functions, each in order. -/
structure File where
  bindings : List Stmt
  functions : List Function

end TestRoster.Go
