import TestRoster.Syntax.Node

/-!
The values that a binding gives to its names.

A name gets the value in its place, the first one where it stands, if there are as many values as
names. Otherwise no name gets a value.
-/
namespace TestRoster.Node

variable {names : List String} {values : List Node} {name : String} {value : Node} {i : Nat}

theorem same_comp_str (name : String) :
    (fun d : Datum => d.same (.str name)) ∘ Datum.str = (· == name) := by
  funext s
  rw [Function.comp_apply, Datum.same]

theorem placeIn?_texts (names : List String) (name : String) :
    (Datum.str name).placeIn? (.list (names.map .str)) = .ok (names.findIdx? (· == name)) := by
  rw [Datum.placeIn?, List.findIdx?_map, same_comp_str]

theorem valueFor?_at (even : values.length = names.length)
    (place : names.findIdx? (· == name) = some i) (there : values[i]? = some value) :
    valueFor? (.list (names.map .str)) (.nodes values) false (.str name) = .ok value := by
  have counted : values.length = (names.map Datum.str).length := by rw [even, List.length_map]
  simp only [valueFor?, placeIn?_texts, place, Sequence.length?, Datum.count?, Datum.length?,
    Sequence.get?, Sequence.partAt?, bind, Except.bind, pure, Except.pure, counted, there, if_true,
    Bool.false_eq_true, if_false]

theorem valueFor?_of_nodup (distinct : names.Nodup) (even : values.length = names.length)
    (named : names[i]? = some name) (there : values[i]? = some value) :
    valueFor? (.list (names.map .str)) (.nodes values) false (.str name) = .ok value := by
  refine valueFor?_at even ?_ there
  obtain ⟨inside, rfl⟩ := List.getElem?_eq_some_iff.mp named
  refine List.findIdx?_eq_some_iff_getElem.mpr ⟨inside, beq_self_eq_true _, fun j before same => ?_⟩
  have other := List.pairwise_iff_getElem.mp distinct j i (Nat.lt_trans before inside) inside before
  exact other (eq_of_beq same)

theorem valueFor?_of_uneven (uneven : values.length ≠ names.length) (name : String) :
    valueFor? (.list (names.map .str)) (.nodes values) false (.str name) = .ok null := by
  have counted : values.length ≠ (names.map Datum.str).length := by rwa [List.length_map]
  simp only [valueFor?, placeIn?_texts, Sequence.length?, Datum.count?, Datum.length?, bind,
    Except.bind, pure, Except.pure, Bool.false_eq_true, if_false]
  cases names.findIdx? (· == name) with
  | none => rfl
  | some i => simp only [if_neg counted]

end TestRoster.Node
