import TestRoster.Go.Source
import TestRoster.Text.NameChar

/-!
Tokens of Go sources.

The tokens of a source cover it up to blanks and comments. Whether a line ended before a token is
kept with the token, since the end of a line can end a statement. Where no token can be read, one of
kind `ERROR` takes the rest of the source.
-/
namespace TestRoster.Go

/-- A token: its grammar symbol, the bytes it covers, and whether a line ended before it. -/
structure Token where
  kind : String
  text : String
  start : Nat
  stop : Nat
  newline : Bool
  deriving Repr, Inhabited

namespace Token

def keywords : List String :=
  ["break", "case", "chan", "const", "continue", "default", "defer", "else", "fallthrough", "for",
    "func", "go", "goto", "if", "import", "interface", "map", "package", "range", "return",
    "select", "struct", "switch", "type", "var"]

/-- Operators and brackets, longer ones before their beginnings. -/
def operators : List (List Char) :=
  ["<<=", ">>=", "&^=", "...", "&&", "||", "<-", "++", "--", "==", "!=", "<=", ">=", ":=", "+=",
    "-=", "*=", "/=", "%=", "&=", "|=", "^=", "<<", ">>", "&^", "+", "-", "*", "/", "%", "&", "|",
    "^", "<", ">", "=", "!", "(", ")", "[", "]", "\x7b", "\x7d", ",", ";", ".", ":",
    "~"].map String.toList

def isSpace (c : Char) : Bool :=
  c == ' ' || (9 ≤ c.toNat && c.toNat ≤ 13)

def isHex (c : Char) : Bool :=
  c.isDigit || ('a' ≤ c && c ≤ 'f') || ('A' ≤ c && c ≤ 'F')

def isOctal (c : Char) : Bool :=
  '0' ≤ c && c ≤ '7'

/-- Whether at least `count` characters at the front are of a class. -/
def startsWith (cls : Char → Bool) (count : Nat) (cs : List Char) : Bool :=
  count ≤ (cs.takeWhile cls).length

/-- The length of the rest of an interpreted string, up to its closing quote. -/
def interpretedLength? : List Char → Nat → Option Nat
  | [], _ => none
  | '"' :: _, n => some (n + 1)
  | '\n' :: _, _ => none
  | '\\' :: 'x' :: rest, n =>
    if startsWith isHex 2 rest then interpretedLength? rest (n + 2) else none
  | '\\' :: 'u' :: rest, n =>
    if startsWith isHex 4 rest then interpretedLength? rest (n + 2) else none
  | '\\' :: 'U' :: rest, n =>
    if startsWith isHex 8 rest then interpretedLength? rest (n + 2) else none
  | '\\' :: _ :: rest, n => interpretedLength? rest (n + 2)
  | _ :: rest, n => interpretedLength? rest (n + 1)

def rawLength? (cs : List Char) : Option Nat :=
  let inner := cs.takeWhile (· != '\x60')
  if inner.length < cs.length then some (inner.length + 1) else none

def runeLength? (cs : List Char) : Option Nat :=
  let closed (n : Nat) : Option Nat := if cs[n]? = some '\'' then some (n + 1) else none
  match cs with
  | '\\' :: c :: rest =>
      if "abfnrtv\\'\"".toList.contains c then closed 2
      else if c == 'x' && startsWith isHex 2 rest then closed 4
      else if c == 'u' && startsWith isHex 4 rest then closed 6
      else if c == 'U' && startsWith isHex 8 rest then closed 10
      else if startsWith isOctal 3 (c :: rest) then closed 4
      else none
  | '\'' :: _ => none
  | _ :: _ => closed 1
  | [] => none

/-- The length of the rest of a block comment, up to its end. -/
def commentLength? : List Char → Nat → Option Nat
  | [], _ => none
  | '*' :: '/' :: _, n => some (n + 2)
  | _ :: rest, n => commentLength? rest (n + 1)

def exponentLength (marks : List Char) (cs : List Char) : Nat :=
  match cs with
  | e :: rest =>
      if marks.contains e then
        let sign := match rest with
          | '+' :: _ | '-' :: _ => 1
          | _ => 0
        1 + sign + ((rest.drop sign).takeWhile fun c => c.isDigit || c == '_').length
      else 0
  | [] => 0

def number (cs : List Char) : String × Nat :=
  let hexadecimal := match cs with
    | '0' :: 'x' :: _ | '0' :: 'X' :: _ => true
    | _ => false
  let lead := match cs with
    | '0' :: c :: _ => if "xXbBoO".toList.contains c then 2 else 0
    | _ => 0
  let isDigit (c : Char) : Bool := c == '_' || if hexadecimal then isHex c else c.isDigit
  let whole := lead + ((cs.drop lead).takeWhile isDigit).length
  let fraction := match cs.drop whole with
    | '.' :: rest => 1 + (rest.takeWhile isDigit).length
    | _ => 0
  let exponent :=
    exponentLength (if hexadecimal then ['p', 'P'] else ['e', 'E']) (cs.drop (whole + fraction))
  let length := whole + fraction + exponent
  if cs[length]? = some 'i' then ("imaginary_literal", length + 1)
  else if fraction + exponent = 0 then ("int_literal", length)
  else ("float_literal", length)

def front? (cs : List Char) : Option (String × Nat) :=
  match cs with
  | [] => none
  | '"' :: rest => (interpretedLength? rest 1).map ("interpreted_string_literal", ·)
  | '\x60' :: rest => (rawLength? rest).map fun n => ("raw_string_literal", n + 1)
  | '\'' :: rest => (runeLength? rest).map fun n => ("rune_literal", n + 1)
  | '/' :: '/' :: rest => some ("comment", 2 + (rest.takeWhile (· != '\n')).length)
  | '/' :: '*' :: rest => (commentLength? rest 2).map ("comment", ·)
  | c :: rest =>
      if isNameStart c then
        let name := cs.takeWhile isNameRest
        let text := String.ofList name
        some (if keywords.contains text then text else "identifier", name.length)
      else if c.isDigit || (c == '.' && startsWith Char.isDigit 1 rest) then some (number cs)
      else (operators.find? (·.isPrefixOf cs)).map fun o => (String.ofList o, o.length)

/-- Reads on with the characters `cs`, their byte sizes, the position of the first one, and whether
a line ended since the last token. -/
def scan : Nat → List Char → List Nat → Nat → Bool → List Token
  | 0, _, _, _, _ => []
  | _ + 1, [], _, _, _ => []
  | fuel + 1, c :: cs, sizes, position, newline =>
      if isSpace c then
        scan fuel cs sizes.tail (position + sizes.headD 1) (newline || c == '\n')
      else
        match front? (c :: cs) with
        | none => [⟨"ERROR", "", position, position + sizes.foldl (· + ·) 0, newline⟩]
        | some (kind, n) =>
            let stop := position + (sizes.take n).foldl (· + ·) 0
            let rest := scan fuel ((c :: cs).drop n) (sizes.drop n) stop
            if kind == "comment" then rest newline
            else ⟨kind, String.ofList ((c :: cs).take n), position, stop, newline⟩ :: rest false

/-- The tokens of a source. A byte order mark in front is passed over. -/
def ofSource (src : Source) : List Token :=
  let sized := Utf8.decodeSized src.bytes
  let chars := sized.map Prod.fst
  let sizes := sized.map Prod.snd
  match chars with
  | '\uFEFF' :: rest => scan (chars.length + 1) rest sizes.tail 3 false
  | _ => scan (chars.length + 1) chars sizes 0 false

end Token

end TestRoster.Go
