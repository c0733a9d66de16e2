import Mathlib.Data.List.Perm.Subperm
import TestRoster.Proofs.Datum.Field
import TestRoster.Proofs.Number.Rounding

/-!
Equality of values.

Equal values are of one shape: two numbers of one quantity, whatever their types, one text twice,
lists that are equal item by item, or dictionaries that are equal name by name. So two values that
are equal to a third one are equal, if the dictionaries in them have each name once.
-/
namespace TestRoster

/-- What a number comes to: a count of units of `2 ^ -1074`, or an infinity. -/
inductive Quantity where
  | finite (units : Int)
  | infinite (negative : Bool)

namespace Quantity

def ofInt (n : Int) : Quantity :=
  .finite (n * twoPow 1074)

theorem ofInt_inj {m n : Int} : ofInt m = ofInt n ↔ m = n := by
  have positive : (0 : Int) < twoPow 1074 := Int.natCast_pos.mpr (twoPow_pos 1074)
  rw [ofInt, ofInt, finite.injEq]
  exact Int.mul_eq_mul_right_iff (Int.ne_of_gt positive)

end Quantity

namespace Binary64

def quantity? : Binary64 → Option Quantity
  | .finite s m e => some (.finite (units s m e))
  | .infinite s => some (.infinite s)
  | .nan => none

theorem same_iff_quantity {x y : Binary64} :
    x.same y = true ↔ ∃ q, x.quantity? = some q ∧ y.quantity? = some q := by
  constructor
  · intro equal
    cases x with
    | finite s m e =>
        cases y with
        | finite t n f => exact ⟨_, rfl, by rw [quantity?, of_decide_eq_true equal]⟩
        | infinite | nan => cases equal
    | infinite s =>
        cases y with
        | infinite t => exact ⟨_, rfl, by rw [quantity?, eq_of_beq equal]⟩
        | finite | nan => cases equal
    | nan => cases equal
  · intro ⟨q, left, right⟩
    cases x with
    | finite s m e =>
        cases left
        cases y with
        | finite t n f =>
            rw [quantity?, Option.some.injEq, Quantity.finite.injEq] at right
            exact decide_eq_true right.symm
        | infinite | nan => cases right
    | infinite s =>
        cases left
        cases y with
        | infinite t =>
            cases right
            exact beq_self_eq_true s
        | finite | nan => cases right
    | nan => cases left

theorem isInt_iff_quantity {x : Binary64} {n : Int} :
    x.isInt n = true ↔ x.quantity? = some (.ofInt n) := by
  cases x with
  | finite s m e =>
      rw [isInt, quantity?, Quantity.ofInt, decide_eq_true_iff, Option.some.injEq,
        Quantity.finite.injEq]
  | infinite | nan =>
      constructor
      · intro equal
        cases equal
      · intro equal
        cases equal

end Binary64

namespace Datum

def quantity? : Datum → Option Quantity
  | .float x => x.quantity?
  | d => d.numeral?.map .ofInt

/-- The ways in which two values are equal. -/
inductive Same : Datum → Datum → Prop
  | null : Same .null .null
  | text (s : String) : Same (.str s) (.str s)
  | number {c d q} (left : c.quantity? = some q) (right : d.quantity? = some q) : Same c d
  | list {xs ys} (each : sameList xs ys = true) : Same (.list xs) (.list ys)
  | dict {fs gs : List (String × Datum)} (even : fs.length = gs.length)
      (each : ∀ f ∈ fs, ∃ v, gs.lookup f.1 = some v ∧ f.2.same v = true) :
      Same (.dict fs) (.dict gs)

section

variable {c d : Datum} {x : Binary64} {m n : Int} {q : Quantity}

theorem quantity?_of_numeral (whole : d.numeral? = some n) : d.quantity? = some (.ofInt n) := by
  cases d with
  | bool | int => cases whole; rfl
  | null | float | str | list | dict => cases whole

/-- A number is a binary one or an integer. -/
theorem number_cases (number : d.quantity? = some q) :
    (∃ x, d = .float x ∧ x.quantity? = some q) ∨ ∃ n, d.numeral? = some n ∧ q = .ofInt n := by
  cases d with
  | float x => exact .inl ⟨x, rfl, number⟩
  | bool | int => cases number; exact .inr ⟨_, rfl, rfl⟩
  | null | str | list | dict => cases number

theorem same_numerals (left : c.numeral? = some m) (right : d.numeral? = some n) :
    c.same d = (m == n) := by
  cases c <;> cases left <;> cases d <;> cases right <;> rfl

theorem same_float_numeral (whole : d.numeral? = some n) : (float x).same d = x.isInt n := by
  cases d <;> cases whole <;> rfl

theorem same_numeral_float (whole : c.numeral? = some m) : c.same (.float x) = x.isInt m := by
  cases c <;> cases whole <;> rfl

theorem same_of_quantity (left : c.quantity? = some q) (right : d.quantity? = some q) :
    c.same d = true := by
  obtain ⟨x, rfl, hx⟩ | ⟨m, hm, rfl⟩ := number_cases left
  · obtain ⟨y, rfl, hy⟩ | ⟨n, hn, rfl⟩ := number_cases right
    · exact Binary64.same_iff_quantity.mpr ⟨q, hx, hy⟩
    · rw [same_float_numeral hn]
      exact Binary64.isInt_iff_quantity.mpr hx
  · obtain ⟨y, rfl, hy⟩ | ⟨n, hn, same⟩ := number_cases right
    · rw [same_numeral_float hm]
      exact Binary64.isInt_iff_quantity.mpr hy
    · rw [same_numerals hm hn, Quantity.ofInt_inj.mp same]
      exact beq_self_eq_true n

theorem same_numeral_iff (whole : c.numeral? = some m) :
    c.same d = true ↔ d.quantity? = some (.ofInt m) := by
  refine ⟨fun same => ?_, same_of_quantity (quantity?_of_numeral whole)⟩
  cases d with
  | bool | int =>
      rw [same_numerals whole rfl, beq_iff_eq] at same
      rw [same]
      rfl
  | float y =>
      rw [same_numeral_float whole] at same
      exact Binary64.isInt_iff_quantity.mp same
  | null | str | list | dict =>
      cases c <;> cases whole <;> cases same

theorem same_float_iff :
    (float x).same d = true ↔ ∃ q, x.quantity? = some q ∧ d.quantity? = some q := by
  refine ⟨fun same => ?_, fun ⟨q, left, right⟩ => same_of_quantity left right⟩
  cases d with
  | float y => exact Binary64.same_iff_quantity.mp same
  | bool | int =>
      rw [same_float_numeral rfl] at same
      exact ⟨_, Binary64.isInt_iff_quantity.mp same, rfl⟩
  | null | str | list | dict => cases same

theorem sameFields_iff {fs gs : List (String × Datum)} :
    sameFields fs gs = true ↔ ∀ f ∈ fs, ∃ v, gs.lookup f.1 = some v ∧ f.2.same v = true := by
  induction fs with
  | nil => simp [sameFields]
  | cons f fs ih =>
      obtain ⟨name, value⟩ := f
      rw [sameFields, Bool.and_eq_true, ih, List.forall_mem_cons]
      refine and_congr_left fun _ => ?_
      cases gs.lookup name <;> simp

theorem same_iff : c.same d = true ↔ Same c d := by
  constructor
  · intro same
    cases c with
    | bool b => exact .number rfl ((same_numeral_iff rfl).mp same)
    | int n => exact .number rfl ((same_numeral_iff rfl).mp same)
    | float x =>
        obtain ⟨q, left, right⟩ := same_float_iff.mp same
        exact .number left right
    | null =>
        cases d with
        | null => exact .null
        | bool | int | float | str | list | dict => cases same
    | str s =>
        cases d with
        | str t =>
            obtain rfl : s = t := eq_of_beq same
            exact .text s
        | null | bool | int | float | list | dict => cases same
    | list xs =>
        cases d with
        | list ys => exact .list same
        | null | bool | int | float | str | dict => cases same
    | dict fs =>
        cases d with
        | dict gs =>
            obtain ⟨even, each⟩ := Bool.and_eq_true_iff.mp same
            exact .dict (eq_of_beq even) (sameFields_iff.mp each)
        | null | bool | int | float | str | list => cases same
  · intro same
    cases same with
    | null => rfl
    | text s => exact beq_self_eq_true s
    | number left right => exact same_of_quantity left right
    | list each => exact each
    | dict even each =>
        exact Bool.and_eq_true_iff.mpr ⟨beq_iff_eq.mpr even, sameFields_iff.mpr each⟩

end

/-- That every dictionary in a value has each name once, as dictionaries have. -/
inductive Proper : Datum → Prop
  | null : Proper .null
  | bool (b : Bool) : Proper (.bool b)
  | int (n : Int) : Proper (.int n)
  | float (x : Binary64) : Proper (.float x)
  | str (s : String) : Proper (.str s)
  | list {items : List Datum} (each : ∀ d ∈ items, Proper d) : Proper (.list items)
  | dict {fields : List (String × Datum)} (once : (fields.map Prod.fst).Nodup)
      (each : ∀ f ∈ fields, Proper f.2) : Proper (.dict fields)

variable {x y z : Datum} {q : Quantity}

theorem Same.quantity (equal : Same x z) (number : z.quantity? = some q) :
    x.quantity? = some q := by
  cases equal with
  | number left right => exact left.trans (right.symm.trans number)
  | null | text | list | dict => cases number

theorem sameList_of_sameList {xs ys zs : List Datum}
    (each : ∀ y ∈ ys, ∀ x z : Datum, x.same z = true → y.same z = true → x.same y = true)
    (left : sameList xs zs = true) (right : sameList ys zs = true) : sameList xs ys = true := by
  induction ys generalizing xs zs with
  | nil =>
      cases zs with
      | nil => exact left
      | cons => cases right
  | cons y ys ih =>
      cases zs with
      | nil => cases right
      | cons z zs =>
          cases xs with
          | nil => cases left
          | cons x xs =>
              obtain ⟨first, rest⟩ := Bool.and_eq_true_iff.mp left
              obtain ⟨first', rest'⟩ := Bool.and_eq_true_iff.mp right
              refine Bool.and_eq_true_iff.mpr ⟨?_, ?_⟩
              · exact each y List.mem_cons_self x z first first'
              · exact ih (fun d member => each d (List.mem_cons_of_mem _ member)) rest rest'

/-- Names that are all among as many others are these names in some order. -/
theorem names_perm {fs gs : List (String × Datum)} (once : (fs.map Prod.fst).Nodup)
    (even : fs.length = gs.length) (among : ∀ f ∈ fs, ∃ v, gs.lookup f.1 = some v) :
    (fs.map Prod.fst).Perm (gs.map Prod.fst) := by
  have inside : fs.map Prod.fst ⊆ gs.map Prod.fst := by
    intro name member
    obtain ⟨f, listed, rfl⟩ := List.mem_map.mp member
    obtain ⟨v, found⟩ := among f listed
    exact lookup_isSome_iff.mp (Option.isSome_iff_exists.mpr ⟨v, found⟩)
  refine (List.subperm_of_subset once inside).perm_of_length_le ?_
  rw [List.length_map, List.length_map, even]

theorem fields_of_fields {fs gs hs : List (String × Datum)} (once : (gs.map Prod.fst).Nodup)
    (each : ∀ g ∈ gs, ∀ x z : Datum, x.same z = true → g.2.same z = true → x.same g.2 = true)
    (left : ∀ f ∈ fs, ∃ v, hs.lookup f.1 = some v ∧ f.2.same v = true)
    (right : ∀ g ∈ gs, ∃ v, hs.lookup g.1 = some v ∧ g.2.same v = true)
    (even : gs.length = hs.length) :
    ∀ f ∈ fs, ∃ v, gs.lookup f.1 = some v ∧ f.2.same v = true := by
  intro f member
  have names := names_perm once even fun g member => (right g member).imp fun _ => And.left
  obtain ⟨w, found, equal⟩ := left f member
  have known : f.1 ∈ gs.map Prod.fst :=
    names.mem_iff.mpr (lookup_isSome_iff.mp (Option.isSome_iff_exists.mpr ⟨w, found⟩))
  obtain ⟨g, inside, name⟩ := List.mem_map.mp known
  obtain ⟨w', found', equal'⟩ := right g inside
  rw [name, found] at found'
  cases found'
  refine ⟨g.2, ?_, each g inside f.2 w equal equal'⟩
  exact (lookup_eq_some_iff_mem once).mpr (name ▸ inside)

/-- Two values that are equal to a third one are equal. The induction is on the second one, whose
dictionaries have to be proper: of two names that are the same only the first one is looked up. -/
theorem same_of_same_of_same (proper : y.Proper) (left : x.same z = true)
    (right : y.same z = true) : x.same y = true := by
  rw [same_iff] at left right
  induction proper generalizing x z with
  | null =>
      cases right with
      | null => exact same_iff.mpr left
      | number right => cases right
  | str s =>
      cases right with
      | text => exact same_iff.mpr left
      | number right => cases right
  | bool | int | float =>
      cases right with
      | number own other => exact same_of_quantity (left.quantity other) own
  | list _ ih =>
      cases right with
      | number own => cases own
      | list right =>
          cases left with
          | number _ other => cases other
          | list left =>
              refine sameList_of_sameList (fun y member x z first second => ?_) left right
              exact ih y member (same_iff.mp first) (same_iff.mp second)
  | dict once _ ih =>
      cases right with
      | number own => cases own
      | dict even right =>
          cases left with
          | number _ other => cases other
          | dict even' left =>
              refine same_iff.mpr (.dict (even'.trans even.symm) ?_)
              refine fields_of_fields once (fun g member x z first second => ?_) left right even
              exact ih g member (same_iff.mp first) (same_iff.mp second)

end Datum

end TestRoster
