import TestRoster.Datum.Access

/-!
The order of values.

Numbers are ordered by value, texts by their characters and lists by their first difference. No
other two values have an order. Sorting fails where it has to compare such two, so which values it
compares belongs to its result: first the run in front, then every further value by halving.
-/
namespace TestRoster.Datum

def numberPrecedes? : Datum → Datum → Option Bool
  | .float x, .float y => some (x.lt y)
  | .float x, d => d.numeral?.map x.ltInt
  | c, .float y => c.numeral?.map y.gtInt
  | c, d => do return decide ((← c.numeral?) < (← d.numeral?))

mutual

def precedes : Datum → Datum → Except Misuse Bool
  | .str s, .str t => .ok (decide (s < t))
  | .list xs, .list ys => precedesList xs ys
  | c, d =>
      match numberPrecedes? c d with
      | some answer => .ok answer
      | none => .error (.unordered c.typeName d.typeName)

def precedesList : List Datum → List Datum → Except Misuse Bool
  | _, [] => .ok false
  | [], _ :: _ => .ok true
  | x :: xs, y :: ys => if same x y then precedesList xs ys else precedes x y

end

/-- The values in front of which each stands before the one that it follows, and the others. -/
def fallingRun (last : Datum) : List Datum → Except Misuse (List Datum × List Datum)
  | [] => .ok ([], [])
  | d :: rest => do
      if ← d.precedes last then
        let (run, left) ← fallingRun d rest
        return (d :: run, left)
      else return ([], d :: rest)

/-- The values in front of which none stands before the one that it follows, and the others. -/
def risingRun (last : Datum) : List Datum → Except Misuse (List Datum × List Datum)
  | [] => .ok ([], [])
  | d :: rest => do
      if ← d.precedes last then return ([], d :: rest)
      else
        let (run, left) ← risingRun d rest
        return (d :: run, left)

/-- The longest run in front, put in order, and the values behind it. -/
def frontRun : List Datum → Except Misuse (List Datum × List Datum)
  | [] => .ok ([], [])
  | d :: rest => do
      let (falling, left) ← fallingRun d rest
      if falling.isEmpty then
        let (rising, left) ← risingRun d rest
        return (d :: rising, left)
      else return ((d :: falling).reverse, left)

/-- The place of a value among values in order, found between `low` and `high` by halving. Equal
values stay in front of it. -/
def placeIn (sorted : List Datum) (d : Datum) (low high : Nat) : Except Misuse Nat :=
  if low < high then do
    let middle := low + (high - low) / 2
    if ← d.precedes (sorted.getD middle .null) then placeIn sorted d low middle
    else placeIn sorted d (middle + 1) high
  else .ok low
termination_by high - low

def insertSorted (sorted : List Datum) (d : Datum) : Except Misuse (List Datum) := do
  let place ← placeIn sorted d 0 sorted.length
  return sorted.take place ++ d :: sorted.drop place

/-- The values in order. Equal values keep their order. -/
def sorted (ds : List Datum) : Except Misuse (List Datum) := do
  let (run, left) ← frontRun ds
  left.foldlM insertSorted run

end TestRoster.Datum
