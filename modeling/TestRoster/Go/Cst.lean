/-!
Concrete syntax trees of Go.

A node has the name of its grammar symbol, the bytes it covers and, below its parent, possibly a
field name. Comments are nodes like any other; places where the parser gave up are nodes of kind
`ERROR` or nodes marked as missing.
-/
namespace TestRoster.Go

/-- What a node is, apart from its children. -/
structure Info where
  kind : String
  /-- The bytes from `start` to before `stop`. -/
  start : Nat := 0
  stop : Nat := 0
  /-- The name under which the parent knows the node. -/
  field : Option String := none
  /-- Whether the node is a mere token, such as a keyword or a bracket. -/
  anonymous : Bool := false
  /-- Whether the parser put the node where the source has none. -/
  missing : Bool := false
  /-- Whether the node is flagged to hold a syntax error. -/
  flagged : Bool := false
  deriving DecidableEq, Repr, Inhabited

def Info.isError (i : Info) : Bool :=
  i.kind == "ERROR" || i.missing

def Info.isComment (i : Info) : Bool :=
  i.kind == "comment"

def Info.isNamed (i : Info) : Bool :=
  !i.anonymous && !i.isComment

inductive Cst where
  | node (info : Info) (children : List Cst)
  deriving Inhabited

namespace Cst

def info : Cst → Info
  | .node i _ => i

def children : Cst → List Cst
  | .node _ cs => cs

mutual

/-- The first node in reading order that marks a syntax error. Only children that are flagged or
missing are looked into. -/
def firstError? : Cst → Option Info
  | .node i cs => if i.isError then some i else firstErrorAmong? cs

def firstErrorAmong? : List Cst → Option Info
  | [] => none
  | c :: cs =>
      if c.info.flagged || c.info.missing then
        match firstError? c with
        | some i => some i
        | none => firstErrorAmong? cs
      else firstErrorAmong? cs

end

end Cst

end TestRoster.Go
