import TestRoster.Text.Blank
import TestRoster.Text.Digit

/-!
Whole numbers as they are typed: blanks around, a sign, digits of any script, and single underscores
between digits.
-/
namespace TestRoster

/-- The most digits of a whole number that are converted. -/
def numeralLimit : Nat := 4300

def numeralTooLongMessage (digits : Nat) : String :=
  "Exceeds the limit (" ++ toString numeralLimit ++
    " digits) for integer string conversion: value has " ++ toString digits ++
    " digits; use sys.set_int_max_str_digits() to increase the limit"

def signed : List Char → Bool × List Char
  | '-' :: cs => (true, cs)
  | '+' :: cs => (false, cs)
  | cs => (false, cs)

inductive NumeralFault where
  | malformed
  | tooLong (digits : Nat)
  deriving DecidableEq, Repr

namespace Numeral

/-- The values of digits. A single underscore may follow a digit if a digit follows it. -/
def digits? : List Char → Option (List Nat)
  | [] => none
  | [c] => (decimalDigit? c).map fun d => [d]
  | c :: '_' :: rest => do return (← decimalDigit? c) :: (← digits? rest)
  | c :: rest => do return (← decimalDigit? c) :: (← digits? rest)

def ofDigits (ds : List Nat) : Nat :=
  ds.foldl (fun n d => n * 10 + d) 0

def ofMagnitude (cs : List Char) : Except NumeralFault Nat :=
  match digits? cs with
  | none => .error .malformed
  | some ds => if numeralLimit < ds.length then .error (.tooLong ds.length) else .ok (ofDigits ds)

/-- A text without the blanks that may stand around a number. -/
def unpadded (cs : List Char) : List Char :=
  ((cs.dropWhile isPadding).reverse.dropWhile isPadding).reverse

def parse (cs : List Char) : Except NumeralFault Int :=
  match unpadded cs with
  | '-' :: rest => (ofMagnitude rest).map fun n => -(n : Int)
  | '+' :: rest => (ofMagnitude rest).map fun n => (n : Int)
  | rest => (ofMagnitude rest).map fun n => (n : Int)

end Numeral

end TestRoster
