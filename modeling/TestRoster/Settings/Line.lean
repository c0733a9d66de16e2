import TestRoster.Text.Blank
import TestRoster.Text.Named
import TestRoster.Text.Split

/-!
Reading `key=value` lines.

A key is quoted or runs up to an equals sign, a number sign or a blank. A value is quoted, and may
then span lines, or runs up to the end of the line or to a number sign after a blank. A line that
breaks these rules is left out; reading goes on after its end.

Readers take the rest of the text and return what is left of it.
-/
namespace TestRoster

namespace Setting

def isInlineBlank (c : Char) : Bool :=
  isBlank c && !isLineEnd c

def skipInline (cs : List Char) : List Char :=
  cs.dropWhile isInlineBlank

/-- Takes away the word `export`, if a blank follows it. -/
def skipExport (cs : List Char) : List Char :=
  match cs with
  | 'e' :: 'x' :: 'p' :: 'o' :: 'r' :: 't' :: c :: rest =>
      if isInlineBlank c then skipInline rest else cs
  | _ => cs

def isKeyChar (c : Char) : Bool :=
  c != '=' && c != '#' && !isBlank c

/-- The text up to a quote and what follows the quote. A quote after a backslash does not end the
text. -/
def quoted? (quote : Char) : List Char → Option (List Char × List Char)
  | [] => none
  | '\\' :: c :: rest =>
      if c = quote then
        match quoted? quote rest with
        | some (inside, after) => some ('\\' :: c :: inside, after)
        | none => some (['\\'], rest)
      else (quoted? quote (c :: rest)).map fun (inside, after) => ('\\' :: inside, after)
  | c :: rest =>
      if c = quote then some ([], rest)
      else (quoted? quote rest).map fun (inside, after) => (c :: inside, after)

/-- Characters that a backslash may stand before in double quotes, and what they mean. -/
def doubleQuoteEscapes : List (Char × Char) :=
  [('\\', '\\'), ('\'', '\''), ('"', '"'), ('a', '\x07'), ('b', '\x08'), ('f', '\x0c'),
    ('n', '\n'), ('r', '\r'), ('t', '\t'), ('v', '\x0b')]

def singleQuoteEscapes : List (Char × Char) :=
  [('\\', '\\'), ('\'', '\'')]

/-- Puts in what the escapes mean. A backslash before anything else stays. -/
def unescape (escapes : List (Char × Char)) : List Char → List Char
  | [] => []
  | '\\' :: c :: rest =>
      match escapes.lookup c with
      | some meaning => meaning :: unescape escapes rest
      | none => '\\' :: unescape escapes (c :: rest)
  | c :: rest => c :: unescape escapes rest
termination_by cs => cs.length

def key? : List Char → Option (Option (List Char) × List Char)
  | '#' :: rest => some (none, '#' :: rest)
  | '\'' :: rest =>
      let name := rest.takeWhile (· != '\'')
      match name, rest.drop name.length with
      | _ :: _, _ :: after => some (some name, after)
      | _, _ => none
  | cs =>
      let name := cs.takeWhile isKeyChar
      if name = [] then none else some (some name, cs.drop name.length)

/-- Cuts a comment off an unquoted value: a number sign after blanks, with those blanks. -/
def cutComment : List Char → List Char
  | [] => []
  | c :: rest =>
      if isBlank c && (rest.dropWhile isBlank).head? == some '#' then [] else c :: cutComment rest

/-- A value and the rest; `spaced` tells whether a blank stands between the equals sign and it. -/
def value? (spaced : Bool) : List Char → Option (List Char × List Char)
  | '#' :: rest =>
      if spaced then some ([], '#' :: rest)
      else unquoted ('#' :: rest)
  | '\'' :: rest => (quoted? '\'' rest).map fun (v, after) => (unescape singleQuoteEscapes v, after)
  | '"' :: rest => (quoted? '"' rest).map fun (v, after) => (unescape doubleQuoteEscapes v, after)
  | cs => unquoted cs
where
  unquoted (cs : List Char) : Option (List Char × List Char) :=
    let line := cs.takeWhile (!isLineEnd ·)
    some (trimEnd (cutComment line), cs.drop line.length)

def skipComment (cs : List Char) : List Char :=
  match skipInline cs with
  | '#' :: rest => rest.dropWhile (!isLineEnd ·)
  | _ => cs

/-- What follows the end of the line, if nothing but blanks stands before it. -/
def lineEnd? (cs : List Char) : Option (List Char) :=
  match skipInline cs with
  | [] => some []
  | '\r' :: '\n' :: rest => some rest
  | c :: rest => if isLineEnd c then some rest else none

def skipLine (cs : List Char) : List Char :=
  (cs.dropWhile (!isLineEnd ·)).drop 1

/-- A key, its value if it has one, and what follows the line; or the place where the line breaks
the rules. -/
def binding (cs : List Char) :
    Except (List Char) (Option (List Char) × Option (List Char) × List Char) :=
  let start := skipExport cs
  match key? start with
  | none => .error start
  | some (key, afterKey) =>
      let finish (value : Option (List Char)) (rest : List Char) :=
        match lineEnd? (skipComment rest) with
        | some next => Except.ok (key, value, next)
        | none => .error (skipComment rest)
      match skipInline afterKey with
      | '=' :: afterSign =>
          let rest := skipInline afterSign
          match value? (decide (rest.length < afterSign.length)) rest with
          | some (value, rest) => finish (some value) rest
          | none => .error rest
      | rest => finish none rest

/-- The settings of a text in order, `fuel` lines at most. -/
def bindings : Nat → List Char → List (List Char × Option (List Char))
  | 0, _ => []
  | fuel + 1, cs =>
      match cs.dropWhile isBlank with
      | [] => []
      | rest =>
          match binding rest with
          | .error place => bindings fuel (skipLine place)
          | .ok (some key, value, next) => (key, value) :: bindings fuel next
          | .ok (none, _, next) => bindings fuel next

/-- The settings of a text, each key once with its last value. A byte order mark in front is
dropped. -/
def ofText (text : String) : List (String × Option String) :=
  let cs := match text.toList with
    | '\ufeff' :: rest => rest
    | cs => cs
  (bindings (cs.length + 1) cs).foldl
    (fun settings b => setNamed (String.ofList b.1) (b.2.map String.ofList) settings) []

end Setting

end TestRoster
