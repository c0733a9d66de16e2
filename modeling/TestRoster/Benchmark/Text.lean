import TestRoster.Benchmark.Table
import TestRoster.Number.Fixed

/-!
Tables as aligned text.

Every column is as wide as its widest cell, its header included, and aligned to the right. Binary
numbers of one column have the same number of places: as many as they need, six at most; if they are
very small, or wide and large, all are written with an exponent.
-/
namespace TestRoster

/-- A column of text. A column of numbers keeps a blank in front of its header. -/
structure TextColumn where
  header : String
  numeric : Bool
  cells : List String

namespace TextColumn

def title (c : TextColumn) : String :=
  if c.numeric then " " ++ c.header else c.header

def width (c : TextColumn) : Nat :=
  (c.title :: c.cells).foldl (fun w s => max w s.length) 0

def pad (width : Nat) (s : String) : String :=
  String.ofList (List.replicate (width - s.length) ' ') ++ s

def padded (c : TextColumn) : List String :=
  (c.title :: c.cells).map (pad c.width)

def beside : List String → List String → List String :=
  List.zipWith fun left right => left ++ " " ++ right

def lines : List (List String) → List String
  | [] => []
  | [column] => column
  | column :: rest => beside column (lines rest)

def table (columns : List TextColumn) : String :=
  if columns.all (·.cells.isEmpty) then
    "Empty DataFrame\nColumns: [" ++ String.intercalate ", " (columns.map header) ++ "]\nIndex: []"
  else String.intercalate "\n" (lines (columns.map padded))

end TextColumn

def displayPlaces : Nat := 6

def missingText : String := "NaN"

/-- Whether a text is digits, a point and digits, perhaps after a sign. -/
def isPointed (cs : List Char) : Bool :=
  let unsigned := match cs with
    | '-' :: rest => rest
    | rest => rest
  let whole := unsigned.takeWhile fun c => '0' ≤ c && c ≤ '9'
  match whole, unsigned.drop whole.length with
  | _ :: _, '.' :: fraction => fraction.all fun c => '0' ≤ c && c ≤ '9'
  | _, _ => false

def endingZeros (cs : List Char) : Nat :=
  (cs.reverse.takeWhile (· == '0')).length

/-- Takes zeros away at the end, but leaves one right after the point. -/
def cutZeros (n : Nat) (cs : List Char) : List Char :=
  let cut := cs.take (cs.length - n)
  if cut.getLast? = some '.' then cut ++ ['0'] else cut

def trimZeros (texts : List String) : List String :=
  let pointed := (texts.map String.toList).filter isPointed
  match pointed.map endingZeros with
  | [] => texts
  | n :: ns =>
      let common := ns.foldl min n
      texts.map fun s =>
        if isPointed s.toList then String.ofList (cutZeros common s.toList) else s

def isLarge (x : Binary64) : Bool :=
  let limit := Binary64.ofInt 1000000
  limit.lt x || limit.lt x.neg

def isSmall (x : Binary64) : Bool :=
  let limit := Binary64.ofDecimal false 1 (-6)
  !x.isZero && x.lt limit && x.neg.lt limit

def binaryTexts (xs : List (Option Binary64)) : List String :=
  let write (text : Binary64 → String) : List String :=
    trimZeros (xs.map fun x => (x.map text).getD missingText)
  let fixed := write (Binary64.fixedText displayPlaces)
  let numbers := xs.filterMap id
  let wide := fixed.any fun s => decide (displayPlaces + 6 < s.length)
  if numbers.any isSmall || (wide && numbers.any isLarge) then
    write (Binary64.scientificText displayPlaces)
  else fixed

def singleText (x : Binary64) : String :=
  let text := (x.fixedText displayPlaces).toList
  let text := if text.contains '.' then cutZeros (endingZeros text) text else text
  String.ofList (if text.head? = some '-' then text else ' ' :: text)

/-- The text of a cell in a column that does not hold binary numbers only. -/
def cellText : Cell → String
  | .whole n => toString n
  | .binary x => if x.isNan then missingText else singleText x
  | .absent => "None"

def cellColumn (header : String) (kind : CellKind) (cells : List Cell) : TextColumn where
  header := header
  numeric := kind != .mixed
  cells := if kind = .binary then binaryTexts (cells.map Cell.number?) else cells.map cellText

def fractionPlaces (ms : List Moment) : Nat :=
  if ms.any (·.microsecond % 1000 != 0) then 6
  else if ms.any (·.microsecond != 0) then 3
  else 0

def momentText (places : Nat) (m : Moment) : String :=
  m.dateText ++ " " ++ m.clockText ++
    (if places = 0 then ""
    else "." ++ String.ofList ((Moment.padded 6 m.microsecond).toList.take places))

/-- The texts of a column of moments. Where no zone is known, dates stand alone if all moments are
midnights. -/
def momentTexts (ms : List Moment) : List String :=
  if ms.all (·.offset == none) then
    if ms.all Moment.isMidnight then ms.map Moment.dateText
    else ms.map (momentText (fractionPlaces ms))
  else ms.map (Moment.text " ")

/-- The texts of a column of times, where those that are missing are left out of the account. -/
def timeTexts (ts : List Timestamp) : List String :=
  go (ts.map Timestamp.moment) (momentTexts (ts.filterMap Timestamp.moment))
where
  go : List (Option Moment) → List String → List String
    | [], _ => []
    | some _ :: rest, text :: texts => text :: go rest texts
    | _ :: rest, texts => "NaT" :: go rest texts

def RunTable.text (t : RunTable) : String :=
  TextColumn.table
    (⟨"run_at", false, timeTexts (t.rows.map StampedRow.runAt)⟩ ::
      ⟨"benchmark", false, t.rows.map (·.row.benchmark)⟩ ::
      (Measures.names.zipWith (fun name column => column name)
        (t.kinds.zipWith (fun kind cells name => cellColumn name kind cells)
          ⟨t.rows.map (·.row.measures.procs), t.rows.map (·.row.measures.iterations),
            t.rows.map (·.row.measures.nsPerOp), t.rows.map (·.row.measures.bytesPerOp),
            t.rows.map (·.row.measures.allocsPerOp),
            t.rows.map (·.row.measures.mbPerSecond)⟩)).toList)

def timeCell : Option Binary64 → Cell
  | some x => .binary x
  | none => .binary .nan

def Summary.text (s : Summary) : String :=
  TextColumn.table
    [⟨"benchmark", false, s.rows.map SummaryRow.benchmark⟩,
      cellColumn "runs" .signed (s.rows.map fun r => .whole r.runs),
      cellColumn "mean_ns_per_op" s.kind (s.rows.map fun r => timeCell r.mean),
      cellColumn "min_ns_per_op" s.kind (s.rows.map fun r => timeCell r.least),
      cellColumn "max_ns_per_op" s.kind (s.rows.map fun r => timeCell r.greatest)]

end TestRoster
