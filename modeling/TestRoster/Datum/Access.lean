import TestRoster.Datum.Basic
import TestRoster.Text.Numeral

/-!
Using a value as if it had a certain shape.

Documents are read without a schema: a value is asked for a field, for its parts or for a number,
and the answer is a fault where its type has none.
-/
namespace TestRoster

inductive Misuse where
  | missing (field : String)
  | listByName
  | textByName
  | notSubscriptable (type : String)
  | notIterable (type : String)
  | notAssignable (type : String)
  | noMember (type member : String)
  | notWhole (type : String)
  | notANumeral (text : String)
  | numeralTooLong (digits : Nat)
  | infinite
  | notANumber
  | itemNotText (index : Nat) (type : String)
  | notText (type : String)
  | notPath (type : String)
  | unordered (left right : String)
  | outOfRange
  deriving DecidableEq, Repr

namespace Misuse

def label : Misuse → String
  | .missing _ => "KeyError"
  | .listByName | .textByName | .notSubscriptable _ | .notIterable _ | .notAssignable _
  | .notWhole _
  | .itemNotText _ _ | .notText _ | .notPath _ | .unordered _ _ => "TypeError"
  | .noMember _ _ => "AttributeError"
  | .notANumeral _ | .numeralTooLong _ | .notANumber => "ValueError"
  | .infinite => "OverflowError"
  | .outOfRange => "IndexError"

def message : Misuse → String
  | .missing field => literalText field
  | .listByName => "list indices must be integers or slices, not str"
  | .textByName => "string indices must be integers, not 'str'"
  | .notSubscriptable type => "'" ++ type ++ "' object is not subscriptable"
  | .notAssignable type => "'" ++ type ++ "' object does not support item assignment"
  | .notIterable type => "'" ++ type ++ "' object is not iterable"
  | .noMember type member => "'" ++ type ++ "' object has no attribute '" ++ member ++ "'"
  | .notWhole type =>
      "int() argument must be a string, a bytes-like object or a real number, not '" ++ type ++ "'"
  | .notANumeral text =>
      "invalid literal for int() with base 10: " ++
        String.ofList ((literalText text).toList.take 200)
  | .numeralTooLong digits => numeralTooLongMessage digits
  | .infinite => "cannot convert float infinity to integer"
  | .notANumber => "cannot convert float NaN to integer"
  | .itemNotText index type =>
      "sequence item " ++ toString index ++ ": expected str instance, " ++ type ++ " found"
  | .notText type => "expected string or bytes-like object, got '" ++ type ++ "'"
  | .notPath type => "expected str, bytes or os.PathLike object, not " ++ type
  | .unordered left right =>
      "'<' not supported between instances of '" ++ left ++ "' and '" ++ right ++ "'"
  | .outOfRange => "list index out of range"

end Misuse

namespace Datum

def item (d : Datum) (name : String) : Except Misuse Datum :=
  match d with
  | .dict fields =>
      match field? fields name with
      | some v => .ok v
      | none => .error (.missing name)
  | .list _ => .error .listByName
  | .str _ => .error .textByName
  | d => .error (.notSubscriptable d.typeName)

/-- The field of a dictionary, or a value in its stead. -/
def itemD (d : Datum) (name : String) (fallback : Datum) : Except Misuse Datum :=
  match d with
  | .dict fields => .ok ((field? fields name).getD fallback)
  | d => .error (.noMember d.typeName "get")

/-- The parts of a value in order: characters, items or names. -/
def parts (d : Datum) : Except Misuse (List Datum) :=
  match d.parts? with
  | some ds => .ok ds
  | none => .error (.notIterable d.typeName)

/-- The whole number that a value stands for: fractions are cut off, truth counts as one. -/
def whole : Datum → Except Misuse Int
  | .int n => .ok n
  | .bool b => .ok (if b then 1 else 0)
  | .float x =>
      match x with
      | .nan => .error .notANumber
      | .infinite _ => .error .infinite
      | x => .ok (x.truncate?.getD 0)
  | .str s =>
      match Numeral.parse s.toList with
      | .ok n => .ok n
      | .error .malformed => .error (.notANumeral s)
      | .error (.tooLong digits) => .error (.numeralTooLong digits)
  | d => .error (.notWhole d.typeName)

def textsFrom : Nat → List Datum → Except Misuse (List String)
  | _, [] => .ok []
  | index, .str s :: rest => do return s :: (← textsFrom (index + 1) rest)
  | index, d :: _ => .error (.itemNotText index d.typeName)

def joinTexts (separator : String) (ds : List Datum) : Except Misuse String := do
  return String.intercalate separator (← textsFrom 0 ds)

end Datum

end TestRoster
