import TestRoster.Datum.Basic
import TestRoster.Text.Named
import TestRoster.Text.Numeral

/-!
Reading documents written as JSON.

`Datum.ofJson` reads a whole text and otherwise says what was expected and where. A position is the
number of characters before it; inside the reader it is kept as the number of characters left, so
that a step only looks at the rest of the text. Beyond the standard, the words `NaN`, `Infinity` and
`-Infinity` are numbers. Half of a surrogate pair, which no text can hold, is read as the
replacement character.
-/
namespace TestRoster

namespace Json

inductive Cause where
  | value
  | name
  | colon
  | comma
  | endOfText
  | closingQuote
  | escape
  | unicodeEscape
  | controlCharacter
  | byteOrderMark
  deriving DecidableEq, Repr

def Cause.message : Cause → String
  | .value => "Expecting value"
  | .name => "Expecting property name enclosed in double quotes"
  | .colon => "Expecting ':' delimiter"
  | .comma => "Expecting ',' delimiter"
  | .endOfText => "Extra data"
  | .closingQuote => "Unterminated string starting at"
  | .escape => "Invalid \\escape"
  | .unicodeEscape => "Invalid \\uXXXX escape"
  | .controlCharacter => "Invalid control character at"
  | .byteOrderMark => "Unexpected UTF-8 BOM (decode using utf-8-sig)"

/-- Why a text is not read: it is no document, with the place as line, column and number of
characters before it, or a numeral in it has more digits than are converted. -/
inductive Fault where
  | malformed (cause : Cause) (line column position : Nat)
  | numeralTooLong (digits : Nat)
  deriving DecidableEq, Repr

def Fault.message : Fault → String
  | .malformed cause line column position =>
      cause.message ++ ": line " ++ toString line ++ " column " ++ toString column ++
        " (char " ++ toString position ++ ")"
  | .numeralTooLong digits => numeralTooLongMessage digits

/-- A fault inside the reader, its place given by the number of characters left. -/
inductive Stop where
  | at (cause : Cause) (left : Nat)
  | numeralTooLong (digits : Nat)

def isSpace (c : Char) : Bool :=
  c == ' ' || c == '\t' || c == '\n' || c == '\r'

def skipSpace (cs : List Char) : List Char :=
  cs.dropWhile isSpace

def isDigit (c : Char) : Bool :=
  '0' ≤ c && c ≤ '9'

def number (ds : List Char) : Nat :=
  ds.foldl (fun n c => n * 10 + (c.toNat - 48)) 0

def hexValue? (c : Char) : Option Nat :=
  if '0' ≤ c ∧ c ≤ '9' then some (c.toNat - 48)
  else if 'a' ≤ c ∧ c ≤ 'f' then some (c.toNat - 87)
  else if 'A' ≤ c ∧ c ≤ 'F' then some (c.toNat - 55)
  else none

def fourHex? : List Char → Option (Nat × List Char)
  | a :: b :: c :: d :: rest => do
      let w ← hexValue? a
      let x ← hexValue? b
      let y ← hexValue? c
      let z ← hexValue? d
      pure (((w * 16 + x) * 16 + y) * 16 + z, rest)
  | _ => none

def isHighSurrogate (n : Nat) : Bool := 0xD800 ≤ n && n ≤ 0xDBFF

def isLowSurrogate (n : Nat) : Bool := 0xDC00 ≤ n && n ≤ 0xDFFF

def scalar (n : Nat) : Char :=
  if 0xD800 ≤ n ∧ n ≤ 0xDFFF then '\uFFFD' else Char.ofNat n

/-- The character of a `\u` escape, read after the `u`. The digits must not end the text. A high
surrogate joins with the escape of a low one that follows and does not end the text either. -/
def unicodeEscape (cs : List Char) : Except Stop (Char × List Char) :=
  let stop (rest : List Char) : Except Stop (Char × List Char) :=
    .error (.at .unicodeEscape (rest.length + 1))
  match fourHex? cs with
  | none | some (_, []) => stop cs
  | some (high, rest) =>
      match isHighSurrogate high, rest with
      | true, '\\' :: 'u' :: more =>
          if more.length < 5 then .ok (scalar high, rest)
          else
            match fourHex? more with
            | none => stop more
            | some (low, tail) =>
                if isLowSurrogate low then
                  .ok (Char.ofNat (0x10000 + (high - 0xD800) * 0x400 + (low - 0xDC00)), tail)
                else .ok (scalar high, rest)
      | _, _ => .ok (scalar high, rest)

def simpleEscape? : Char → Option Char
  | '"' => some '"'
  | '\\' => some '\\'
  | '/' => some '/'
  | 'b' => some '\x08'
  | 'f' => some '\x0c'
  | 'n' => some '\n'
  | 'r' => some '\r'
  | 't' => some '\t'
  | _ => none

/-- The rest of a text after its opening quote; `opened` is the number of characters left at that
quote. Characters gather in reverse. -/
def quoted (opened : Nat) : Nat → List Char → List Char → Except Stop (List Char × List Char)
  | 0, _, _ => .error (.at .closingQuote opened)
  | _ + 1, [], _ => .error (.at .closingQuote opened)
  | fuel + 1, c :: cs, acc =>
      if c = '"' then .ok (acc.reverse, cs)
      else if c = '\\' then
        match cs with
        | [] => .error (.at .closingQuote opened)
        | 'u' :: rest =>
            match unicodeEscape rest with
            | .ok (d, tail) => quoted opened fuel tail (d :: acc)
            | .error e => .error e
        | d :: rest =>
            match simpleEscape? d with
            | some x => quoted opened fuel rest (x :: acc)
            | none => .error (.at .escape (cs.length + 1))
      else if c.toNat < 0x20 then .error (.at .controlCharacter (cs.length + 1))
      else quoted opened fuel cs (c :: acc)

def readQuoted (cs : List Char) : Except Stop (String × List Char) :=
  match quoted (cs.length + 1) (cs.length + 1) cs [] with
  | .ok (text, rest) => .ok (String.ofList text, rest)
  | .error e => .error e

/-- The fraction of a numeral, if a point with a digit follows. -/
def fraction (cs : List Char) : List Char × List Char :=
  match cs with
  | '.' :: rest =>
      let ds := rest.takeWhile isDigit
      if ds.isEmpty then ([], cs) else (ds, rest.dropWhile isDigit)
  | _ => ([], cs)

def exponent? (cs : List Char) : Option (Int × List Char) :=
  match cs with
  | [] => none
  | e :: rest =>
      if e = 'e' ∨ e = 'E' then
        let (negative, rest) := signed rest
        let ds := rest.takeWhile isDigit
        if ds.isEmpty then none
        else
          let n : Int := number ds
          some (if negative then -n else n, rest.dropWhile isDigit)
      else none

def unsignedNumeral? (negative : Bool) (cs : List Char) :
    Option (Except Stop (Datum × List Char)) :=
  let whole := match cs with
    | '0' :: _ => ['0']
    | _ => cs.takeWhile isDigit
  if whole.isEmpty then none
  else
    let rest := cs.drop whole.length
    let (fractional, rest) := fraction rest
    match fractional, exponent? rest with
    | [], none =>
        if numeralLimit < whole.length then some (.error (.numeralTooLong whole.length))
        else
          let n : Int := number whole
          some (.ok (.int (if negative then -n else n), rest))
    | _, exponent =>
        let (e, rest) := exponent.getD (0, rest)
        some (.ok (.float (Binary64.ofDecimal negative (number (whole ++ fractional))
          (e - fractional.length)), rest))

def numeral? : List Char → Option (Except Stop (Datum × List Char))
  | '-' :: cs => unsignedNumeral? true cs
  | cs => unsignedNumeral? false cs

def words : List (List Char × Datum) :=
  [
    ("null".toList, .null),
    ("true".toList, .bool true),
    ("false".toList, .bool false),
    ("NaN".toList, .float .nan),
    ("Infinity".toList, .float (.infinite false)),
    ("-Infinity".toList, .float (.infinite true))
  ]

def word? (cs : List Char) : Option (Datum × List Char) :=
  (words.find? fun w => w.1.isPrefixOf cs).map fun w => (w.2, cs.drop w.1.length)

mutual

def value : Nat → List Char → Except Stop (Datum × List Char)
  | 0, cs => .error (.at .value cs.length)
  | fuel + 1, cs =>
      match cs with
      | '"' :: rest => (fun r => (Datum.str r.1, r.2)) <$> readQuoted rest
      | '[' :: rest =>
          match skipSpace rest with
          | ']' :: tail => .ok (.list [], tail)
          | inner => items fuel inner []
      | '\x7b' :: rest =>
          match skipSpace rest with
          | '\x7d' :: tail => .ok (.dict [], tail)
          | inner => fields fuel inner []
      | _ =>
          match word? cs with
          | some r => .ok r
          | none => (numeral? cs).getD (.error (.at .value cs.length))

def items : Nat → List Char → List Datum → Except Stop (Datum × List Char)
  | 0, cs, _ => .error (.at .value cs.length)
  | fuel + 1, cs, acc =>
      match value fuel cs with
      | .error e => .error e
      | .ok (d, rest) =>
          match skipSpace rest with
          | ']' :: tail => .ok (.list (d :: acc).reverse, tail)
          | ',' :: tail => items fuel (skipSpace tail) (d :: acc)
          | other => .error (.at .comma other.length)

/-- The fields of a dictionary from one of them on. A name that comes again keeps its first place
and takes the last value. -/
def fields : Nat → List Char → List (String × Datum) → Except Stop (Datum × List Char)
  | 0, cs, _ => .error (.at .name cs.length)
  | fuel + 1, cs, acc =>
      match cs with
      | '"' :: rest =>
          match readQuoted rest with
          | .error e => .error e
          | .ok (name, rest) =>
              match skipSpace rest with
              | ':' :: rest =>
                  match value fuel (skipSpace rest) with
                  | .error e => .error e
                  | .ok (d, rest) =>
                      match skipSpace rest with
                      | '\x7d' :: tail => .ok (.dict (setNamed name d acc), tail)
                      | ',' :: tail => fields fuel (skipSpace tail) (setNamed name d acc)
                      | other => .error (.at .comma other.length)
              | other => .error (.at .colon other.length)
      | other => .error (.at .name other.length)

end

def Stop.fault (text : List Char) : Stop → Fault
  | .numeralTooLong digits => .numeralTooLong digits
  | .at cause left =>
      let position := text.length - left
      let before := text.take position
      .malformed cause (before.count '\n' + 1)
        ((before.reverse.takeWhile (· != '\n')).length + 1) position

def document (text : List Char) : Except Stop Datum :=
  match text with
  | '\uFEFF' :: _ => .error (.at .byteOrderMark text.length)
  | _ =>
      match value (2 * text.length + 2) (skipSpace text) with
      | .error e => .error e
      | .ok (d, rest) =>
          match skipSpace rest with
          | [] => .ok d
          | other => .error (.at .endOfText other.length)

end Json

def Datum.ofJson (text : String) : Except Json.Fault Datum :=
  (Json.document text.toList).mapError (Json.Stop.fault text.toList)

end TestRoster
