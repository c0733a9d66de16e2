import TestRoster.Number.Shortest

/-!
The cells of tables.

All cells of a column are kept the same way: as whole numbers in words with or without a sign, as
binary numbers, or as they are.
-/
namespace TestRoster

inductive CellKind where
  | signed
  | unsigned
  | binary
  | mixed
  deriving DecidableEq, Repr

/-- One cell: a whole number, a binary number, or nothing. -/
inductive Cell where
  | whole (n : Nat)
  | binary (x : Binary64)
  | absent
  deriving DecidableEq, Repr

namespace Cell

def ofCount : Option Nat → Cell
  | some n => .whole n
  | none => .absent

def whole? : Cell → Option Int
  | .whole n => some n
  | .binary x => x.truncate?
  | .absent => none

/-- The binary number that a cell stands for. What is no number is as good as absent. -/
def number? : Cell → Option Binary64
  | .whole n => some (Binary64.ofInt n)
  | .binary x => if x.isNan then none else some x
  | .absent => none

end Cell

end TestRoster
