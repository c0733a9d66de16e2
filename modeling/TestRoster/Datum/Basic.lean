import TestRoster.Number.Shortest
import TestRoster.Text.Literal

/-!
Bare values: what a document holds, and what may stand in a syntax tree where a node belongs.
-/
namespace TestRoster

/-- A value of a document. The fields of a dictionary are kept in the order of their first
occurrence, each name once. -/
inductive Datum where
  | null
  | bool (b : Bool)
  | int (n : Int)
  | float (x : Binary64)
  | str (s : String)
  | list (items : List Datum)
  | dict (fields : List (String × Datum))
  deriving Inhabited

namespace Datum

def typeName : Datum → String
  | .null => "NoneType"
  | .bool _ => "bool"
  | .int _ => "int"
  | .float _ => "float"
  | .str _ => "str"
  | .list _ => "list"
  | .dict _ => "dict"

/-- Whether a value counts as set: not null, not false, not zero and not empty. -/
def truthy : Datum → Bool
  | .null => false
  | .bool b => b
  | .int n => n != 0
  | .float x => !x.isZero
  | .str s => s != ""
  | .list xs => !xs.isEmpty
  | .dict fs => !fs.isEmpty

def field? (fields : List (String × Datum)) (name : String) : Option Datum :=
  fields.lookup name

def numeral? : Datum → Option Int
  | .bool b => some (if b then 1 else 0)
  | .int n => some n
  | _ => none

mutual

/-- Equality of values. Numbers are compared by value whatever their type, dictionaries whatever
their order. -/
def same : Datum → Datum → Bool
  | .null, .null => true
  | .str s, .str t => s == t
  | .list xs, .list ys => sameList xs ys
  | .dict fs, .dict gs => fs.length == gs.length && sameFields fs gs
  | .float x, .float y => x.same y
  | .float x, d => match d.numeral? with
      | some n => x.isInt n
      | none => false
  | c, .float y => match c.numeral? with
      | some n => y.isInt n
      | none => false
  | c, d => match c.numeral?, d.numeral? with
      | some m, some n => m == n
      | _, _ => false

def sameList : List Datum → List Datum → Bool
  | [], [] => true
  | x :: xs, y :: ys => same x y && sameList xs ys
  | _, _ => false

def sameFields : List (String × Datum) → List (String × Datum) → Bool
  | [], _ => true
  | (n, v) :: fs, gs =>
      (match gs.lookup n with
        | some w => same v w
        | none => false) && sameFields fs gs

end

mutual

/-- The written form of a value, texts in quotes. -/
def literal : Datum → String
  | .null => "None"
  | .bool b => if b then "True" else "False"
  | .int n => toString n
  | .float x => x.text "inf" "nan"
  | .str s => literalText s
  | .list xs => "[" ++ String.intercalate ", " (literalItems xs) ++ "]"
  | .dict fs => "\x7b" ++ String.intercalate ", " (literalFields fs) ++ "\x7d"

def literalItems : List Datum → List String
  | [] => []
  | x :: xs => literal x :: literalItems xs

def literalFields : List (String × Datum) → List String
  | [] => []
  | (n, v) :: fs => (literalText n ++ ": " ++ literal v) :: literalFields fs

end

/-- A value inside a message: a text as it is, all else in its written form. -/
def text : Datum → String
  | .str s => s
  | d => d.literal

def length? : Datum → Option Nat
  | .str s => some s.length
  | .list xs => some xs.length
  | .dict fs => some fs.length
  | _ => none

/-- The parts of a value in order: characters, items or names. -/
def parts? : Datum → Option (List Datum)
  | .str s => some (s.toList.map fun c => .str (String.ofList [c]))
  | .list xs => some xs
  | .dict fs => some (fs.map fun f => .str f.1)
  | _ => none

end Datum

end TestRoster
