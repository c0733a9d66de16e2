import TestRoster.Datum.Basic

/-!
Writing values as JSON.

A layout chooses the separators, the indentation, the order of fields and whether characters beyond
ASCII are escaped. What one line holds with the default layout reads back as the same value.
-/
namespace TestRoster

namespace Json

/-- How a document is laid out. Without indentation it is one line. -/
structure Layout where
  indent : Option String := none
  itemSeparator : String := ", "
  nameSeparator : String := ": "
  sortFields : Bool := false
  asciiOnly : Bool := true

/-- A layout with one line per part. No blank ends a line. -/
def Layout.indented (width : Nat) : Layout :=
  { indent := some (String.ofList (List.replicate width ' ')), itemSeparator := "," }

def fourDigits (n : Nat) : List Char :=
  '\\' :: 'u' :: hexPadded 4 n

/-- An escaped character: two escapes make up a character above FFFF. -/
def escapedChar (c : Char) : List Char :=
  let n := c.toNat
  if n < 0x10000 then fourDigits n
  else fourDigits (0xD800 + (n - 0x10000) / 0x400) ++ fourDigits (0xDC00 + (n - 0x10000) % 0x400)

def textChar (asciiOnly : Bool) (c : Char) : List Char :=
  if c = '"' then ['\\', '"']
  else if c = '\\' then ['\\', '\\']
  else if c = '\n' then ['\\', 'n']
  else if c = '\r' then ['\\', 'r']
  else if c = '\t' then ['\\', 't']
  else if c = '\x0c' then ['\\', 'f']
  else if c = '\x08' then ['\\', 'b']
  else if c.toNat < 0x20 then escapedChar c
  else if asciiOnly ∧ 0x7E < c.toNat then escapedChar c
  else [c]

def quote (asciiOnly : Bool) (s : String) : String :=
  String.ofList ('"' :: s.toList.flatMap (textChar asciiOnly) ++ ['"'])

def numberText (x : Binary64) : String :=
  x.text "Infinity" "NaN"

def Layout.lineEnd (l : Layout) (depth : Nat) : String :=
  match l.indent with
  | none => ""
  | some unit => "\n" ++ String.join (List.replicate depth unit)

def Layout.enclose (l : Layout) (opening closing : String) (depth : Nat) (parts : List String) :
    String :=
  if parts.isEmpty then opening ++ closing
  else
    opening ++ l.lineEnd (depth + 1) ++
      String.intercalate (l.itemSeparator ++ l.lineEnd (depth + 1)) parts ++
      l.lineEnd depth ++ closing

def Layout.order (l : Layout) (fields : List (String × String)) : List (String × String) :=
  if l.sortFields then fields.mergeSort fun a b => decide (a.1 ≤ b.1) else fields

mutual

def write (l : Layout) (depth : Nat) : Datum → String
  | .null => "null"
  | .bool b => if b then "true" else "false"
  | .int n => toString n
  | .float x => numberText x
  | .str s => quote l.asciiOnly s
  | .list xs => l.enclose "[" "]" depth (writeItems l (depth + 1) xs)
  | .dict fs =>
      l.enclose "\x7b" "\x7d" depth
        ((l.order (writeFields l (depth + 1) fs)).map fun f =>
          quote l.asciiOnly f.1 ++ l.nameSeparator ++ f.2)

def writeItems (l : Layout) (depth : Nat) : List Datum → List String
  | [] => []
  | x :: xs => write l depth x :: writeItems l depth xs

def writeFields (l : Layout) (depth : Nat) : List (String × Datum) → List (String × String)
  | [] => []
  | (n, v) :: fs => (n, write l depth v) :: writeFields l depth fs

end

end Json

def Datum.toJson (d : Datum) (layout : Json.Layout) : String :=
  Json.write layout 0 d

end TestRoster
