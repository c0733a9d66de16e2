import TestRoster.Proofs.Discovery.Depth
import TestRoster.Proofs.Syntax.Binding

/-!
Copies of the variables of a range clause.

A copy binds a name to an identifier, the one in the place of the name. A field of the value
variable is read from the table behind any number of copies, as far as the bound on references
goes. A range variable that is itself the name is not followed so: behind a copy it names nothing.
-/
namespace TestRoster

namespace Node

/-- A range clause with the collection that it ranges over. -/
structure RangeClause where
  line : Int
  targets : List String
  source : Node
  others : List Node := []

namespace RangeClause

def values (r : RangeClause) : Sequence :=
  .nodes (r.source :: r.others)

def identifier (r : RangeClause) (line : Int) (name : String) : Node :=
  .identifier line (.str name) (.assignment r.line (.list (r.targets.map .str)) r.values true)

end RangeClause

/-- A binding that gives a name the value in its place, with the names and values around it, and the
line where the name is used. A name that is listed twice stands in its first place. -/
structure Copy where
  name : String
  line : Int
  bound : Int
  before : List (String × Node) := []
  after : List (String × Node) := []
  first : name ∉ before.map Prod.fst := by simp

namespace Copy

def targets (c : Copy) : List String :=
  c.before.map Prod.fst ++ c.name :: c.after.map Prod.fst

def values (c : Copy) (original : Node) : Sequence :=
  .nodes (c.before.map Prod.snd ++ original :: c.after.map Prod.snd)

def of (c : Copy) (original : Node) : Node :=
  .identifier c.line (.str c.name)
    (.assignment c.bound (.list (c.targets.map .str)) (c.values original) false)

end Copy

/-- The identifier behind a chain of copies, the latest first. -/
def copied (original : Node) (copies : List Copy) : Node :=
  copies.foldr Copy.of original

/-- The names of the identifiers from the latest copy to a name that is copied. -/
def visited (copies : List Copy) (name : String) : List String :=
  copies.map Copy.name ++ [name]

section

variable {r : RangeClause} {c : Copy} {copies : List Copy} {line : Int} {name : String}

theorem findIdx?_targets (c : Copy) : c.targets.findIdx? (· == c.name) = some c.before.length := by
  have absent : c.before.findIdx? ((· == c.name) ∘ Prod.fst) = none := by
    refine List.findIdx?_eq_none_iff.mpr fun entry member => ?_
    exact beq_false_of_ne fun same => c.first (List.mem_map.mpr ⟨entry, member, same⟩)
  rw [Copy.targets, List.findIdx?_append, List.findIdx?_map, absent, List.findIdx?_cons]
  simp

/-- A copy gives its name what stands in the place of the name. -/
theorem valueFor?_copy (c : Copy) (original : Node) :
    valueFor? (.list (c.targets.map .str)) (c.values original) false (.str c.name) =
      .ok original :=
  valueFor?_at (by simp [Copy.targets]) (findIdx?_targets c) (by simp)

theorem isSecondOf?_texts (targets : List String) (name : String) :
    isSecondOf? (.list (targets.map .str)) (.str name) = .ok (targets[1]? == some name) := by
  have listed : isSecondOf? (.list (targets.map .str)) (.str name) =
      .ok ((targets.map Datum.str)[1]?.any (·.same (.str name))) := rfl
  rw [listed, List.getElem?_map]
  cases targets[1]? with
  | none => rfl
  | some second => rw [Option.map_some, Option.any_some, Datum.same, Option.some_beq_some]

/-- The range clause behind copies of its value variable is found if the bound admits the variable
and every copy. -/
theorem loopBinding_copied (r : RangeClause) (line : Int) (name : String) (copies : List Copy)
    (depth : Nat) :
    (copied (r.identifier line name) copies).loopBinding depth =
      .ok (if r.targets[1]? = some name ∧ copies.length + 1 ≤ depth then some r.values
        else none) := by
  induction copies generalizing depth with
  | nil =>
      cases depth with
      | zero => simp [loopBinding]
      | succ depth =>
          have given : r.values.truthy = true := rfl
          simp only [copied, List.foldr_nil, RangeClause.identifier, loopBinding, if_true,
            isSecondOf?_texts, given, Bool.and_true, beq_iff_eq, List.length_nil,
            Nat.add_le_add_iff_right, Nat.zero_le, and_true]
          split <;> rfl
  | cons c earlier ih =>
      cases depth with
      | zero => simp [loopBinding]
      | succ depth =>
          have step : (copied (r.identifier line name) (c :: earlier)).loopBinding (depth + 1) =
              (copied (r.identifier line name) earlier).loopBinding depth := by
            simp only [copied, List.foldr_cons, Copy.of, loopBinding, Bool.false_eq_true, if_false,
              valueFor?_copy]
          simp only [step, ih, List.length_cons, Nat.add_le_add_iff_right]

/-- A reference to a range variable visits the copies and then the variable, where it ends. -/
theorem chain_copied (r : RangeClause) (line : Int) (name : String) (copies : List Copy) :
    (copied (r.identifier line name) copies).Chain ((visited copies name).map .str)
      (.error (.ambiguous (.loopVariable (.str name)))) := by
  induction copies with
  | nil => exact .loopVariable
  | cons c earlier ih =>
      obtain ⟨line', name', declared, shape⟩ : ∃ line' name' declared,
          copied (r.identifier line name) earlier = .identifier line' name' declared := by
        cases earlier with
        | nil => exact ⟨_, _, _, rfl⟩
        | cons => exact ⟨_, _, _, rfl⟩
      refine .bound (valueFor?_copy c _) ?given ?later
      case given =>
        rw [← copied, shape]
        exact Node.noConfusion
      case later =>
        rw [shape] at ih
        rw [← copied, shape]
        exact ih

/-- What a copy of a range variable stands for: nothing, since the reference ends with the variable
or is given up before. -/
theorem resolveName_copy (cfg : Config) (r : RangeClause) (line : Int) (name : String) (c : Copy)
    (earlier : List Copy) :
    (copied (r.identifier line name) (c :: earlier)).resolveName cfg =
      return .skipped
        (match (visited (c :: earlier) name)[cfg.maxReferenceDepth]? with
          | none => .loopVariable (.str name)
          | some given => .tooDeep (.str given)) c.line := by
  have followed : (copied (r.identifier line name) (c :: earlier)).follow cfg = _ :=
    (chain_copied r line name (c :: earlier)).followFrom_eq cfg.maxReferenceDepth
  have shape : (copied (r.identifier line name) (c :: earlier)).resolveName cfg =
      followedName cfg c.line (.str c.name)
        (.assignment c.bound (.list (c.targets.map .str))
          (c.values (copied (r.identifier line name) earlier)) false) := rfl
  have itself : Node.identifier c.line (.str c.name)
      (.assignment c.bound (.list (c.targets.map .str))
        (c.values (copied (r.identifier line name) earlier)) false) =
      copied (r.identifier line name) (c :: earlier) := rfl
  rw [shape, followedName, itself, followed, List.getElem?_map]
  cases (visited (c :: earlier) name)[cfg.maxReferenceDepth]? <;> rfl

/-- The names of a range variable: the keys of what the clause ranges over for its first target, and
the values for its second one. -/
theorem resolveName_identifier (cfg : Config) (r : RangeClause) (line : Int) (name : String)
    (ranged : name ∈ r.targets.take 2) :
    (r.identifier line name).resolveName cfg =
      if r.targets.head? = some name then r.source.mapKeys cfg
      else r.source.elementValues cfg := by
  have among : ((r.targets.map Datum.str).take 2).any (·.same (.str name)) = true := by
    rw [← List.map_take, List.any_map, same_comp_str, List.any_beq', List.contains_iff_mem]
    exact ranged
  have heads : isFirst? (.list (r.targets.map .str)) (.str name) =
      .ok (decide (r.targets.head? = some name)) := by
    cases targets : r.targets with
    | nil => simp [targets] at ranged
    | cons first rest => simp [isFirst?, Datum.same, Bool.beq_eq_decide_eq]
  have shape : (r.identifier line name).resolveName cfg =
      rangedNames cfg line (.str name) (.list (r.targets.map .str)) r.values := rfl
  have given : r.values.truthy = true := rfl
  rw [shape, rangedNames, given, isRanged?, among, heads]
  by_cases head : r.targets.head? = some name
  · rw [if_pos head, decide_eq_true head]
    rfl
  · rw [if_neg head, decide_eq_false head]
    rfl

end

end Node

/-- A field of a loop's variable, read behind any number of copies of it. It has the names of the
table that the clause ranges over if the variable is the clause's second target and the bound on
references admits the variable and every copy; else it is one ambiguous issue, and no name. -/
theorem field_of_loop_value_is_read_through_copies (cfg : Config) (r : Node.RangeClause)
    (copies : List Node.Copy) (line used : Int) (name : String) (field : Datum) :
    (Node.memberAccess used (.copied (r.identifier line name) copies) field).resolveName cfg =
      if r.targets[1]? = some name ∧ copies.length + 1 ≤ cfg.maxReferenceDepth then
        r.source.tableNames cfg field
      else return .skipped (.notReadFromLoop field) used := by
  rw [Node.resolveName, Node.loopBinding_copied]
  by_cases found : r.targets[1]? = some name ∧ copies.length + 1 ≤ cfg.maxReferenceDepth
  · rw [if_pos found, if_pos found]
    rfl
  · rw [if_neg found, if_neg found]
    rfl

/-- A field of an element, behind a copy of the loop's variable beside another copied name. -/
example :
    let row := Node.compositeValue 3 (.nodes [.positionalElement 3 (.literal 3 (.str "\x60a\x60"))])
    let r : Node.RangeClause := ⟨2, ["i", "tt"], .compositeValue 2 (.nodes [row]), []⟩
    let copy : Node.Copy :=
      { name := "tt", line := 5, bound := 4, before := [("i", r.identifier 4 "i")] }
    let names (cfg : Config) := ((Node.memberAccess 5 (.copied (r.identifier 4 "tt") [copy])
      (.str "name")).resolveName cfg).result.toOption.map Resolution.names
    names { maxReferenceDepth := 2 } = some ["a"] ∧ names { maxReferenceDepth := 1 } = some [] := by
  decide +kernel

/-- A copy of a range variable names nothing. The variable itself has the keys or the values of what
the clause ranges over; its copies have no name, whatever the bound, and one ambiguous issue in the
line of the use: that the variable is a loop's, or that the bound was met. So a copy has the names
of its variable only where that has none. -/
theorem copies_of_range_variables_name_nothing (cfg : Config) (r : Node.RangeClause) (line : Int)
    (name : String) (c : Node.Copy) (earlier : List Node.Copy)
    (ranged : name ∈ r.targets.take 2) :
    let original := r.identifier line name
    let copy := Node.copied original (c :: earlier)
    original.resolveName cfg =
        (if r.targets.head? = some name then r.source.mapKeys cfg
          else r.source.elementValues cfg) ∧
      copy.resolveName cfg = pure (.skipped
          (match (Node.visited (c :: earlier) name)[cfg.maxReferenceDepth]? with
            | none => .loopVariable (.str name)
            | some given => .tooDeep (.str given)) c.line) ∧
      ((copy.resolveName cfg).result.toOption.map Resolution.names =
          (original.resolveName cfg).result.toOption.map Resolution.names ↔
        (original.resolveName cfg).result.toOption.map Resolution.names = some []) := by
  intro original copy
  have unnamed := Node.resolveName_copy cfg r line name c earlier
  refine ⟨Node.resolveName_identifier cfg r line name ranged, unnamed, ?_⟩
  have nothing : (copy.resolveName cfg).result.toOption.map Resolution.names = some [] := by
    rw [unnamed]
    rfl
  rw [nothing]
  exact eq_comm

/-- The key of a map without entries, behind two copies. It has no name either. -/
theorem copies_of_key_of_empty_map_name_nothing :
    let cfg : Config := {}
    let r : Node.RangeClause := ⟨2, ["key"], .compositeValue 2 (.nodes []), []⟩
    let first : Node.Copy := { name := "k", line := 4, bound := 3 }
    let second : Node.Copy := { name := "key", line := 5, bound := 4 }
    "key" ∈ r.targets.take 2 ∧
      (Node.copied (r.identifier 3 "key") [second, first]).resolveName cfg =
        pure (.skipped (.loopVariable (.str "key")) 5) ∧
      ((Node.copied (r.identifier 3 "key") [second, first]).resolveName cfg).result.toOption.map
        Resolution.names = ((r.identifier 3 "key").resolveName cfg).result.toOption.map
          Resolution.names := by
  intro cfg r first second
  have ranged : "key" ∈ r.targets.take 2 := by decide
  obtain ⟨-, unnamed, same⟩ :=
    copies_of_range_variables_name_nothing cfg r 3 "key" second [first] ranged
  exact ⟨ranged, unnamed, same.mpr (by decide +kernel)⟩

/-- An element of a list names a subtest. Behind a copy of the same name it does not. -/
theorem copied_element_does_not_name_subtest :
    let cfg : Config := {}
    let element := Node.positionalElement 2 (.literal 2 (.str "\x60a\x60"))
    let r : Node.RangeClause := ⟨2, ["_", "name"], .compositeValue 2 (.nodes [element]), []⟩
    let copy : Node.Copy := { name := "name", line := 4, bound := 3 }
    "name" ∈ r.targets.take 2 ∧ (Node.visited [copy] "name").length ≤ cfg.maxReferenceDepth ∧
      ((r.identifier 3 "name").resolveName cfg).result.toOption.map Resolution.names =
        some ["a"] ∧
      ((Node.copied (r.identifier 3 "name") [copy]).resolveName cfg).result.toOption.map
        Resolution.names = some [] := by
  decide +kernel

end TestRoster
