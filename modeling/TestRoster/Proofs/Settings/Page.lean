import TestRoster.Proofs.Text.Span
import TestRoster.Text.Named

/-!
Pages of settings.

A page is made of lines: blank ones, comments, and pairs of a key and a value without quotes, which
blanks and a comment may follow. A reader of pages gathers their pairs by their keys.
-/
namespace TestRoster

namespace Setting

/-- Blanks within a line. -/
structure Gap where
  chars : List Char := []
  blanks : chars.all (fun c => isBlank c && !isLineEnd c) = true := by decide

/-- A comment, without its number sign. -/
structure Remark where
  chars : List Char
  unbroken : chars.all (!isLineEnd ·) = true := by decide

/-- A key without quotes. -/
structure Key where
  chars : List Char
  given : chars ≠ [] := by decide
  word : chars.all (fun c => c != '=' && c != '#' && !isBlank c) = true := by decide
  unquoted : chars.head?.all (fun c => c != '\'' && c != '\ufeff') = true := by decide

/-- A value without quotes, with no blanks around it and no comment in it. -/
structure Value where
  chars : List Char
  unbroken : chars.all (!isLineEnd ·) = true := by decide
  unquoted : chars.head?.all (fun c => !isBlank c && c != '\'' && c != '"') = true := by decide
  ended : chars.getLast?.all (!isBlank ·) = true := by decide
  unremarked : (chars.zip chars.tail).all (fun p => !(isBlank p.1 && p.2 == '#')) = true := by
    decide

/-- What may stand behind a value: blanks, and a comment after a blank. -/
structure Rest where
  gap : Gap := {}
  remark : Option Remark := none
  apart : remark.isSome = true → gap.chars ≠ [] := by decide

/-- A line that gives a key its value. The word `export` is a key only right before the equals sign,
and a number sign starts a value only right behind it. -/
structure Pair where
  indent : Gap := {}
  key : Key
  before : Gap := {}
  after : Gap := {}
  value : Value
  rest : Rest := {}
  exported : key.chars = ['e', 'x', 'p', 'o', 'r', 't'] → before.chars = [] := by decide
  marked : value.chars.head? = some '#' → after.chars = [] := by decide

inductive Line where
  | blank (gap : Gap)
  | comment (indent : Gap) (remark : Remark)
  | pair (p : Pair)

inductive LineBreak where
  | lineFeed
  | carriageReturn

/-- Lines with a line break between any two of them. -/
inductive Page where
  | last (line : Line)
  | more (line : Line) (stop : LineBreak) (page : Page)

def Rest.text (r : Rest) : List Char :=
  match r.remark with
  | none => r.gap.chars
  | some remark => r.gap.chars ++ '#' :: remark.chars

def Pair.given (p : Pair) : List Char :=
  p.after.chars ++ p.value.chars ++ p.rest.text

def Pair.text (p : Pair) : List Char :=
  p.key.chars ++ p.before.chars ++ '=' :: p.given

def Line.text : Line → List Char
  | .blank gap => gap.chars
  | .comment indent remark => indent.chars ++ '#' :: remark.chars
  | .pair p => p.indent.chars ++ p.text

/-- A line feed, alone or behind a carriage return. -/
def LineBreak.text : LineBreak → List Char
  | .lineFeed => ['\n']
  | .carriageReturn => ['\r', '\n']

namespace Page

def text : Page → List Char
  | .last line => line.text
  | .more line stop page => line.text ++ stop.text ++ page.text

def lines : Page → List Line
  | .last line => [line]
  | .more line _ page => line :: page.lines

end Page

def Line.pair? : Line → Option Pair
  | .pair p => some p
  | .blank _ | .comment _ _ => none

def Pair.entry (p : Pair) : String × String :=
  (String.ofList p.key.chars, String.ofList p.value.chars)

def Page.entries (page : Page) : List (String × String) :=
  (page.lines.filterMap Line.pair?).map Pair.entry

/-- That the pairs of a page are read in order and gathered by their keys, each key in the place of
its first line and with the value of its last one. -/
def ReadsPages (read : String → List (String × Option String)) : Prop :=
  ∀ page : Page, read (String.ofList page.text) =
    page.entries.foldl (fun settings e => setNamed e.1 (some e.2) settings) []

theorem Value.start (v : Value) :
    ∀ c ∈ v.chars.head?, isBlank c = false ∧ c ≠ '\'' ∧ c ≠ '"' := by
  simpa [Option.all_eq_true, and_assoc] using v.unquoted

theorem Value.stop (v : Value) : ∀ c ∈ v.chars.getLast?, isBlank c = false := by
  simpa [Option.all_eq_true] using v.ended

end Setting

end TestRoster
