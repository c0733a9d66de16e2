import TestRoster.Text.Utf8

/-!
Quoted literals of Go and the texts they denote.

An interpreted literal is read to bytes first: a byte escape stands for one byte, every other
piece for the bytes of a character, and only the whole run of bytes is read as a text. A run of
byte escapes can therefore spell one character.
-/
namespace TestRoster.Quoted

inductive EscapeFault where
  /-- The escape announces hexadecimal digits and fewer follow. -/
  | missingDigits
  /-- The number is no code point. -/
  | beyondUnicode
  /-- The number does not even fit a machine word of 31 bits. -/
  | beyondWord
  /-- The number is a surrogate, which no text holds. -/
  | surrogate (code : Nat)
  deriving DecidableEq, Repr

def digitValue? (c : Char) : Option Nat :=
  let n := c.toNat
  if 48 ≤ n ∧ n ≤ 57 then some (n - 48)
  else if 65 ≤ n ∧ n ≤ 70 then some (n - 55)
  else if 97 ≤ n ∧ n ≤ 102 then some (n - 87)
  else none

/-- The number that exactly `count` digits of `base` spell at the front of `cs`. -/
def leadingNumber? (base : Nat) : Nat → List Char → Nat → Option Nat
  | 0, _, acc => some acc
  | _ + 1, [], _ => none
  | count + 1, c :: cs, acc =>
      match digitValue? c with
      | some d => if d < base then leadingNumber? base count cs (acc * base + d) else none
      | none => none

def codePoint (n : Nat) : Except EscapeFault (List UInt8) :=
  if 0x7FFFFFFF < n then .error .beyondWord
  else if 0x10FFFF < n then .error .beyondUnicode
  else if 0xD800 ≤ n ∧ n ≤ 0xDFFF then .error (.surrogate n)
  else .ok (Utf8.encodeChar (Char.ofNat n))

def simpleEscape? : Char → Option Char
  | 'a' => some '\x07'
  | 'b' => some '\x08'
  | 'f' => some '\x0c'
  | 'n' => some '\n'
  | 'r' => some '\r'
  | 't' => some '\t'
  | 'v' => some '\x0b'
  | '\\' => some '\\'
  | '\'' => some '\''
  | '"' => some '"'
  | _ => none

/-- One escape, read after its backslash at character `c`: the bytes it stands for and how many
characters of `rest` it takes. A character that starts no escape is kept with its backslash. -/
def readEscape (c : Char) (rest : List Char) : Except EscapeFault (List UInt8 × Nat) :=
  let hexadecimal (count : Nat) : Except EscapeFault (List UInt8 × Nat) :=
    match leadingNumber? 16 count rest 0 with
    | some n => (·, count) <$> codePoint n
    | none => .error .missingDigits
  if c = 'x' then
    match leadingNumber? 16 2 rest 0 with
    | some n => .ok ([UInt8.ofNat n], 2)
    | none => .error .missingDigits
  else if c = 'u' then hexadecimal 4
  else if c = 'U' then hexadecimal 8
  else
    match leadingNumber? 8 3 (c :: rest) 0 with
    | some n => .ok ([UInt8.ofNat n], 2)
    | none =>
        match simpleEscape? c with
        | some d => .ok (Utf8.encodeChar d, 0)
        | none => .ok (Utf8.encode ['\\', c], 0)

/-- The bytes of an interpreted literal's body. A backslash at the very end stands for itself. -/
def bodyBytes : List Char → Except EscapeFault (List UInt8)
  | [] => .ok []
  | '\\' :: c :: rest =>
      match readEscape c rest with
      | .ok (bytes, n) => (bytes ++ ·) <$> bodyBytes (rest.drop n)
      | .error e => .error e
  | c :: rest => (Utf8.encodeChar c ++ ·) <$> bodyBytes rest
  termination_by cs => cs.length
  decreasing_by all_goals (simp only [List.length_drop, List.length_cons]; omega)

def unescape (body : String) : Except EscapeFault String :=
  (fun bytes => String.ofList (Utf8.decodeLossy bytes)) <$> bodyBytes body.toList

def dropQuotes (cs : List Char) : List Char :=
  cs.filter fun c => c != '"' && c != '\x60'

/-- The text of a literal as written in a source: an interpreted literal is unescaped, and no
quoting delimiter is left anywhere. -/
def stripQuotes (text : String) : Except EscapeFault String :=
  let cs := text.toList
  if 2 ≤ cs.length ∧ cs.head? = some '"' ∧ cs.getLast? = some '"' then
    (fun inner => String.ofList (dropQuotes inner.toList)) <$>
      unescape (String.ofList cs.tail.dropLast)
  else .ok (String.ofList (dropQuotes cs))

def EscapeFault.label : EscapeFault → String
  | .missingDigits | .beyondUnicode => "ValueError"
  | .beyondWord => "OverflowError"
  | .surrogate _ => "UnicodeEncodeError"

def hexText (n : Nat) : String :=
  String.ofList (Nat.toDigits 16 n)

def EscapeFault.message : EscapeFault → String
  | .missingDigits => "invalid literal for int() with base 16: ''"
  | .beyondUnicode => "chr() arg not in range(0x110000)"
  | .beyondWord => "Python int too large to convert to C int"
  | .surrogate n =>
      "'utf-8' codec can't encode character '\\u" ++ hexText n ++
        "' in position 0: surrogates not allowed"

end TestRoster.Quoted
