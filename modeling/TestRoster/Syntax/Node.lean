import TestRoster.Datum.Basic
import TestRoster.Go.Quoted

/-!
The syntax trees that discovery reads.

A tree keeps what names and launches of subtests are made of: calls, selectors, composite values,
loops, closures, bindings. An identifier carries the node that declared it, so a reference is
followed inside the tree. Any place may hold a bare value instead of what belongs there; the types
admit that everywhere, and what then goes wrong is a `Fault`.
-/
namespace TestRoster

mutual

/-- A node of a syntax tree, or a bare value in a node's place. `line` is the source line, zero if
unknown. -/
inductive Node where
  /-- No node at all. Null stands where a node is left out. -/
  | bare (value : Datum)
  /-- A literal as written in the source, quotes included. -/
  | literal (line : Int) (text : Datum)
  /-- A name, with the node that declared it. -/
  | identifier (line : Int) (name : Datum) (declaration : Node)
  /-- A selector `target.member`. -/
  | memberAccess (line : Int) (target : Node) (member : Datum)
  /-- A call. -/
  | invocation (line : Int) (callee : Node) (arguments : Sequence)
  /-- One address or dereference operator. -/
  | indirection (line : Int) (target : Node)
  /-- An entry `key: value` of a composite value. -/
  | keyedElement (line : Int) (key value : Node)
  /-- An entry of a composite value without key. -/
  | positionalElement (line : Int) (value : Node)
  /-- A struct, array, slice or map literal. -/
  | compositeValue (line : Int) (elements : Sequence)
  /-- A binding of names. A ranged one binds the key and value of the collection in `values`. -/
  | assignment (line : Int) (targets : Datum) (values : Sequence) (ranged : Bool)
  /-- A function literal. -/
  | closure (line : Int) (body : Sequence)
  /-- A loop. -/
  | iteration (line : Int) (source : Node) (body : Sequence)
  /-- A function or method declaration. -/
  | declaration (line : Int) (name : Datum) (body : Sequence) (receiver : Datum)
  /-- A construct without meaning for discovery, kept for reports. -/
  | other (line : Int) (nodeType text : Datum)

/-- A field that holds nodes in order, or a single node or bare value in their place. -/
inductive Sequence where
  | nodes (items : List Node)
  | lone (n : Node)

end

instance : Inhabited Node := ⟨.bare .null⟩

instance : Inhabited Sequence := ⟨.nodes []⟩

inductive Fault where
  /-- A row of a table holds something that is no element of a composite value. -/
  | unknownElement (kind : String)
  /-- A bare value stands among statements. -/
  | notAStatement (type : String)
  /-- A bare value stands where a subtest is named. -/
  | notAName (type : String)
  /-- Reading a node of this kind met another fault. -/
  | malformed (kind : String) (cause : Fault)
  /-- The length of a value that has none. -/
  | noLength (type : String)
  /-- The parts of a value that has none. -/
  | notIterable (type : String)
  /-- Membership in a value that has no members. -/
  | notAContainer (type : String)
  /-- A part, by position, of a value that has none. -/
  | notSubscriptable (type : String)
  /-- A position that a dictionary does not know. -/
  | noPosition (index : Nat)
  /-- A position behind the last part of a value. -/
  | outOfRange (type : String)
  /-- A value looked for in a text that is none. -/
  | notAPart (type : String)
  /-- A value looked for in a dictionary that cannot be a name there. -/
  | unhashable (type : String)
  /-- A field of a value that lacks it. -/
  | noField (type field : String)
  /-- Escapes in a value that is no text. -/
  | notAText (type : String)
  /-- A literal whose escapes have no value. -/
  | escape (cause : Quoted.EscapeFault)

namespace Fault

def isUnexpectedShape : Fault → Bool
  | .unknownElement _ | .notAStatement _ | .notAName _ | .malformed _ _ => true
  | _ => false

/-- A fault met while a node of this kind was read, as an unexpected shape. -/
def within (kind : String) (f : Fault) : Fault :=
  if f.isUnexpectedShape then f else .malformed kind f

def label : Fault → String
  | .unknownElement _ | .notAStatement _ | .notAName _ | .malformed _ _ =>
      "UnexpectedNodeShapeError"
  | .noLength _ | .notIterable _ | .notAContainer _ | .notSubscriptable _ | .notAText _
  | .notAPart _ | .unhashable _ => "TypeError"
  | .noPosition _ => "KeyError"
  | .outOfRange _ => "IndexError"
  | .noField _ _ => "AttributeError"
  | .escape cause => cause.label

def message : Fault → String
  | .unknownElement kind => "unknown row element " ++ kind
  | .notAStatement type => "statement is a " ++ type ++ ", not a syntax node"
  | .notAName type => "name argument is a " ++ type ++ ", not a syntax node"
  | .malformed kind cause => "malformed " ++ kind ++ " (" ++ cause.label ++ ": " ++ cause.message ++
    ")"
  | .noLength type => "object of type '" ++ type ++ "' has no len()"
  | .notIterable type => "'" ++ type ++ "' object is not iterable"
  | .notAContainer type => "argument of type '" ++ type ++ "' is not iterable"
  | .notSubscriptable type => "'" ++ type ++ "' object is not subscriptable"
  | .noPosition index => toString index
  | .outOfRange type => type ++ " index out of range"
  | .notAPart type => "'in <string>' requires string as left operand, not " ++ type
  | .unhashable type => "unhashable type: '" ++ type ++ "'"
  | .noField type field => "'" ++ type ++ "' object has no attribute '" ++ field ++ "'"
  | .notAText type => "expected string or bytes-like object, got '" ++ type ++ "'"
  | .escape cause => cause.message

end Fault

namespace Node

def null : Node := .bare .null

/-- What a node is, in messages; for a bare value, its type. -/
def describe : Node → String
  | .bare d => d.typeName
  | .literal .. => "Literal"
  | .identifier .. => "Identifier"
  | .memberAccess .. => "MemberAccess"
  | .invocation .. => "Invocation"
  | .indirection .. => "Indirection"
  | .keyedElement .. => "KeyedElement"
  | .positionalElement .. => "PositionalElement"
  | .compositeValue .. => "CompositeValue"
  | .assignment .. => "Assignment"
  | .closure .. => "Closure"
  | .iteration .. => "Iteration"
  | .declaration .. => "Declaration"
  | .other .. => "Opaque"

/-- The kind of a node. A bare value has none. -/
def kind? : Node → Except Fault String
  | .bare d => .error (.noField d.typeName "kind")
  | n => .ok n.describe

/-- The source line of a node, zero for a bare value. -/
def line : Node → Int
  | .bare _ => 0
  | .literal l _ | .identifier l _ _ | .memberAccess l _ _ | .invocation l _ _ | .indirection l _
  | .keyedElement l _ _ | .positionalElement l _ | .compositeValue l _ | .assignment l _ _ _
  | .closure l _ | .iteration l _ _ | .declaration l _ _ _ | .other l _ _ => l

/-- What an address or dereference operator is applied to; any other node itself. -/
def behindIndirection : Node → Node
  | .indirection _ target => target
  | n => n

def elements? : Node → Except Fault Sequence
  | .compositeValue _ elements => .ok elements
  | n => .error (.noField n.describe "elements")

def literalText? : Datum → Except Fault String
  | .str s => (Quoted.stripQuotes s).mapError .escape
  | .list xs =>
      let quote := Datum.str "\""
      if 2 ≤ xs.length ∧ (xs.head?.any quote.same) ∧ (xs.getLast?.any quote.same) then
        .error (.notAText "list")
      else .error (.noField "list" "replace")
  | .dict fs => .error (if 2 ≤ fs.length then .noPosition 0 else .noField "dict" "replace")
  | d => .error (.noLength d.typeName)

/-- The name under which a key files its element: a field name as it stands, a literal by the text
it denotes. Any other key has no name. -/
def keyName? : Node → Except Fault Datum
  | .identifier _ name _ => .ok name
  | .literal _ text => .str <$> literalText? text
  | _ => .ok .null

end Node

def Node.parts? : Node → Option (List Node)
  | .bare d => d.parts?.map (·.map .bare)
  | _ => none

namespace Sequence

/-- The nodes in order. A bare value gives its parts. -/
def toList? : Sequence → Except Fault (List Node)
  | .nodes items => .ok items
  | .lone n =>
      match n.parts? with
      | some parts => .ok parts
      | none => .error (.notIterable n.describe)

def length? : Sequence → Except Fault Nat
  | .nodes items => .ok items.length
  | .lone n =>
      match n.parts? with
      | some parts => .ok parts.length
      | none => .error (.noLength n.describe)

/-- Whether there is anything in the field. A node counts as something. -/
def truthy : Sequence → Bool
  | .nodes items => !items.isEmpty
  | .lone (.bare d) => d.truthy
  | .lone _ => true

def partAt? (type : String) (parts : List Node) (index : Nat) : Except Fault Node :=
  match parts[index]? with
  | some n => .ok n
  | none => .error (.outOfRange type)

def get? (s : Sequence) (index : Nat) : Except Fault Node :=
  match s with
  | .nodes items => partAt? "tuple" items index
  | .lone (.bare (.str t)) => partAt? "string" (((Node.bare (.str t)).parts?).getD []) index
  | .lone (.bare (.list xs)) => partAt? "list" (xs.map .bare) index
  | .lone (.bare (.dict _)) => .error (.noPosition index)
  | .lone n => .error (.notSubscriptable n.describe)

end Sequence

def Node.elementList? (n : Node) : Except Fault (List Node) := do
  (← n.elements?).toList?

namespace Datum

def isHashable : Datum → Bool
  | .list _ | .dict _ => false
  | _ => true

def textIndex? (part : List Char) : List Char → Option Nat
  | [] => if part.isEmpty then some 0 else none
  | c :: cs => if part.isPrefixOf (c :: cs) then some 0 else (textIndex? part cs).map (· + 1)

/-- The place of a name among the names that a binding lists. A text lists its parts. -/
def placeIn? (name : Datum) : Datum → Except Fault (Option Nat)
  | .list names => .ok (names.findIdx? (·.same name))
  | .str t =>
      match name with
      | .str s => .ok (textIndex? s.toList t.toList)
      | d => .error (.notAPart d.typeName)
  | .dict fields =>
      if !name.isHashable then .error (.unhashable name.typeName)
      else if fields.any fun f => Datum.same (.str f.1) name then .error (.noField "dict" "index")
      else .ok none
  | d => .error (.notAContainer d.typeName)

def count? (d : Datum) : Except Fault Nat :=
  match d.length? with
  | some n => .ok n
  | none => .error (.noLength d.typeName)

end Datum

namespace Node

/-- The value that a binding gives to a name: the one at the place of the name, if there are as many
values as names. A ranged binding gives none. -/
def valueFor? (targets : Datum) (values : Sequence) (ranged : Bool) (name : Datum) :
    Except Fault Node := do
  if ranged then return null
  match ← name.placeIn? targets with
  | none => return null
  | some index => if (← values.length?) = (← targets.count?) then values.get? index else return null

/-- Whether a name is among the targets of a range clause that stand for something. The key comes
first, then the value; targets further on stand for nothing. -/
def isRanged? (targets name : Datum) : Except Fault Bool :=
  match targets with
  | .list names => .ok ((names.take 2).any (·.same name))
  | .str t =>
      match name with
      | .str s => .ok (Datum.textIndex? s.toList (t.toList.take 2)).isSome
      | d => .error (.notAPart d.typeName)
  | .dict _ => .error (.unhashable "slice")
  | d => .error (.notSubscriptable d.typeName)

def isFirst? (targets name : Datum) : Except Fault Bool :=
  match targets with
  | .list [] => .error (.outOfRange "list")
  | .list (first :: _) => .ok (first.same name)
  | .str t =>
      match t.toList with
      | [] => .error (.outOfRange "string")
      | c :: _ => .ok ((Datum.str (String.ofList [c])).same name)
  | .dict _ => .error (.noPosition 0)
  | d => .error (.notSubscriptable d.typeName)

def isSecondOf? (targets name : Datum) : Except Fault Bool :=
  match targets with
  | .dict fields => if 1 < fields.length then .error (.noPosition 1) else .ok false
  | d =>
      match d.parts? with
      | some names => .ok (names[1]?.any (·.same name))
      | none => .error (.noLength d.typeName)

end Node

end TestRoster
