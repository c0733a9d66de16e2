import TestRoster.Proofs.Datum.Equality
import TestRoster.Proofs.Discovery.WellFormed

/-!
Rows with keys.

A row whose elements have a key each, no two of one name, is a map from names to values. It is named
by the value under the field, wherever that stands, and by nothing if no key has the name of the
field; so the order of its elements is of no account.
-/
namespace TestRoster

namespace Node

/-- That an element stands under a key of this name. -/
inductive KeyedBy : Node → Datum → Prop
  | mk {line key value name} (read : key.keyName? = .ok name) :
      KeyedBy (.keyedElement line key value) name

/-- That an element gives a value to the field. -/
inductive Gives (field : Datum) : Node → Node → Prop
  | mk {line key value name} (read : key.keyName? = .ok name) (same : name.same field = true) :
      Gives field (.keyedElement line key value) value

section

variable {cfg : Config} {field name : Datum} {element value : Node} {elements : List Node}
  {names : List Datum}

theorem nameAmong_cons (here : element.KeyedBy name) :
    nameAmong cfg field (element :: elements) =
      if name.same field then element.elementValue.literalValue cfg
      else nameAmong cfg field elements := by
  cases here with
  | mk read => simp only [nameAmong, read, elementValue]

theorem gives_iff (here : element.KeyedBy name) :
    element.Gives field value ↔ name.same field = true ∧ value = element.elementValue := by
  cases here with
  | mk read =>
      constructor
      · rintro ⟨read', same⟩
        cases read.symm.trans read'
        exact ⟨same, rfl⟩
      · rintro ⟨same, rfl⟩
        exact ⟨read, same⟩

/-- The name is that of the one value given to the field, by induction on the elements before it. -/
theorem nameAmong_of_gives (keyed : ∀ e ∈ elements, ∃ name, e.KeyedBy name)
    (only : ∀ e ∈ elements, ∀ other, e.Gives field other → other = value)
    (member : element ∈ elements) (gives : element.Gives field value) :
    nameAmong cfg field elements = value.literalValue cfg := by
  induction elements with
  | nil => cases member
  | cons e rest ih =>
      obtain ⟨name, here⟩ := keyed e List.mem_cons_self
      rw [nameAmong_cons here]
      by_cases same : name.same field = true
      · have own : e.Gives field e.elementValue := (gives_iff here).mpr ⟨same, rfl⟩
        rw [if_pos same, only e List.mem_cons_self _ own]
      · rw [if_neg same]
        apply ih
        · exact fun d later => keyed d (List.mem_cons_of_mem _ later)
        · exact fun d later => only d (List.mem_cons_of_mem _ later)
        · cases member with
          | head => exact absurd ((gives_iff here).mp gives).1 same
          | tail _ later => exact later

theorem nameAmong_of_none (keyed : ∀ e ∈ elements, ∃ name, e.KeyedBy name)
    (none : ∀ e ∈ elements, ∀ value, ¬ e.Gives field value) :
    nameAmong cfg field elements = .error (.ambiguous (.noNameField field)) := by
  induction elements with
  | nil => rfl
  | cons e rest ih =>
      obtain ⟨name, here⟩ := keyed e List.mem_cons_self
      have other : ¬ name.same field = true := by
        intro same
        exact none e List.mem_cons_self _ ((gives_iff here).mpr ⟨same, rfl⟩)
      rw [nameAmong_cons here, if_neg other]
      apply ih
      · exact fun d later => keyed d (List.mem_cons_of_mem _ later)
      · exact fun d later => none d (List.mem_cons_of_mem _ later)

theorem exists_name (named : List.Forall₂ KeyedBy elements names) (member : element ∈ elements) :
    ∃ name ∈ names, element.KeyedBy name := by
  induction named with
  | nil => cases member
  | cons here _ ih =>
      cases member with
      | head => exact ⟨_, List.mem_cons_self, here⟩
      | tail _ later =>
          obtain ⟨name, inside, there⟩ := ih later
          exact ⟨name, List.mem_cons_of_mem _ inside, there⟩

/-- Elements of distinct names give at most one value to a field. Two of them would have names that
are equal to the field, and so to each other. -/
theorem gives_unique (named : List.Forall₂ KeyedBy elements names)
    (distinct : names.Pairwise fun a b => a.same b = false) (proper : ∀ n ∈ names, n.Proper)
    {e e' v v' : Node} (member : e ∈ elements) (member' : e' ∈ elements)
    (gives : e.Gives field v) (gives' : e'.Gives field v') : v = v' := by
  induction named with
  | nil => cases member
  | @cons first name rest names here later ih =>
      obtain ⟨apart, distinct⟩ := List.pairwise_cons.mp distinct
      obtain ⟨-, proper⟩ := List.forall_mem_cons.mp proper
      have alone {d w w' : Node} (own : first.Gives field w) (behind : d ∈ rest) :
          ¬ d.Gives field w' := by
        intro other
        obtain ⟨name', inside, there⟩ := exists_name later behind
        have equal : name.same name' = true :=
          Datum.same_of_same_of_same (proper name' inside) ((gives_iff here).mp own).1
            ((gives_iff there).mp other).1
        rw [apart name' inside] at equal
        cases equal
      cases member with
      | head =>
          cases member' with
          | head =>
              exact ((gives_iff here).mp gives).2.trans ((gives_iff here).mp gives').2.symm
          | tail _ behind => exact absurd gives' (alone gives behind)
      | tail _ behind =>
          cases member' with
          | head => exact absurd gives (alone gives' behind)
          | tail _ behind' => exact ih distinct proper behind behind'

end

/-- That a row has these elements, under keys of these names, no two of them equal. A name may be
any value, not only a text. -/
structure Keyed (row : Node) (elements : List Node) (names : List Datum) : Prop where
  listed : row.elementList? = .ok elements
  named : List.Forall₂ KeyedBy elements names
  distinct : names.Pairwise fun a b => a.same b = false
  proper : ∀ n ∈ names, n.Proper

namespace Keyed

variable {cfg : Config} {field : Datum} {row row' element value : Node}
  {elements elements' : List Node} {names : List Datum}
  (keyed : row.Keyed elements names) (listed : row'.elementList? = .ok elements')
  (perm : elements'.Perm elements)

include keyed

theorem each (e : Node) (member : e ∈ elements) : ∃ name, e.KeyedBy name := by
  obtain ⟨name, -, here⟩ := exists_name keyed.named member
  exact ⟨name, here⟩

include listed perm

theorem rowName_eq (cfg : Config) (field : Datum) :
    row'.rowName cfg field = nameAmong cfg field elements' := by
  apply rowName_of_known listed
  intro e member
  obtain ⟨name, here⟩ := keyed.each e (perm.mem_iff.mp member)
  cases here
  rfl

/-- In any order a row is named by the value under the field. -/
theorem rowName_of_gives (member : element ∈ elements) (gives : element.Gives field value) :
    row'.rowName cfg field = value.literalValue cfg := by
  have only : ∀ e ∈ elements', ∀ other, e.Gives field other → other = value := by
    intro e there other also
    exact gives_unique keyed.named keyed.distinct keyed.proper (perm.mem_iff.mp there) member also
      gives
  rw [keyed.rowName_eq listed perm]
  exact nameAmong_of_gives (fun e there => keyed.each e (perm.mem_iff.mp there)) only
    (perm.mem_iff.mpr member) gives

theorem rowName_of_none (none : ∀ e ∈ elements, ∀ value, ¬ e.Gives field value) :
    row'.rowName cfg field = .error (.ambiguous (.noNameField field)) := by
  rw [keyed.rowName_eq listed perm]
  exact nameAmong_of_none (fun e there => keyed.each e (perm.mem_iff.mp there))
    fun e there => none e (perm.mem_iff.mp there)

end Keyed

end Node

/-- A row with keys may list its elements in any order. Whatever the field, each row with the same
elements has the same name, or the same reason for having none: the name is that of the value under
the field, and if no key has the name of the field there is none. -/
theorem keyed_rows_list_fields_in_any_order (cfg : Config) (field : Datum) {row row' : Node}
    {elements elements' : List Node} {names : List Datum} (keyed : row.Keyed elements names)
    (listed : row'.elementList? = .ok elements') (perm : elements'.Perm elements) :
    row'.rowName cfg field = row.rowName cfg field ∧
      (∀ e ∈ elements, ∀ value, e.Gives field value →
        row'.rowName cfg field = value.literalValue cfg) ∧
      ((∀ n ∈ names, n.same field = false) →
        row'.rowName cfg field = .error (.ambiguous (.noNameField field))) := by
  refine ⟨?same, fun e member value gives => ?named, fun absent => ?unnamed⟩
  case same =>
    by_cases given : ∃ e ∈ elements, ∃ value, e.Gives field value
    · obtain ⟨e, member, value, gives⟩ := given
      rw [keyed.rowName_of_gives listed perm member gives,
        keyed.rowName_of_gives keyed.listed (.refl _) member gives]
    · have none : ∀ e ∈ elements, ∀ value, ¬ e.Gives field value :=
        fun e member value gives => given ⟨e, member, value, gives⟩
      rw [keyed.rowName_of_none listed perm none,
        keyed.rowName_of_none keyed.listed (.refl _) none]
  case named => exact keyed.rowName_of_gives listed perm member gives
  case unnamed =>
    apply keyed.rowName_of_none listed perm
    intro e member value gives
    obtain ⟨name, inside, here⟩ := Node.exists_name keyed.named member
    have same := ((Node.gives_iff here).mp gives).1
    rw [absent name inside] at same
    cases same

/-- A row whose name stands under a quoted key, behind a constant, between a plain key and a key
without name. -/
theorem quoted_key_among_others_names_row_in_any_place :
    let plain : Node := .keyedElement 3 (.identifier 3 (.str "input") .null)
      (.literal 3 (.str "1"))
    let quoted : Node := .keyedElement 4 (.literal 4 (.str "\"na\\x6de\""))
      (.identifier 4 (.str "given")
        (.assignment 1 (.list [.str "given"]) (.nodes [.literal 1 (.str "\x60case\x60")]) false))
    let nameless : Node := .keyedElement 5 (.memberAccess 5 .null (.str "k"))
      (.closure 5 (.nodes []))
    let row : Node := .compositeValue 2 (.nodes [plain, quoted, nameless])
    let row' : Node := .compositeValue 2 (.nodes [nameless, plain, quoted])
    row.Keyed [plain, quoted, nameless] [.str "input", .str "name", .null] ∧
      row'.elementList? = .ok [nameless, plain, quoted] ∧
      [nameless, plain, quoted].Perm [plain, quoted, nameless] ∧
      row'.rowName {} (.str "name") = .ok "case" ∧ row.rowName {} (.str "name") = .ok "case" ∧
      row'.rowName {} (.str "want") = .error (.ambiguous (.noNameField (.str "want"))) := by
  intro plain quoted nameless row row'
  have spelled : Quoted.stripQuotes "\"na\\x6de\"" = .ok "name" := by decide +kernel
  have read : (Node.literal 4 (.str "\"na\\x6de\"")).keyName? = .ok (.str "name") := by
    rw [Node.keyName?, Node.literalText?, spelled]
    rfl
  have keyed : row.Keyed [plain, quoted, nameless] [.str "input", .str "name", .null] := {
    listed := rfl
    named := .cons ⟨rfl⟩ (.cons ⟨read⟩ (.cons ⟨rfl⟩ .nil))
    distinct := by decide
    proper := by
      intro n member
      simp only [List.mem_cons, List.not_mem_nil, or_false] at member
      obtain rfl | rfl | rfl := member
      · exact .str _
      · exact .str _
      · exact .null }
  have listed : row'.elementList? = .ok [nameless, plain, quoted] := rfl
  have perm : [nameless, plain, quoted].Perm [plain, quoted, nameless] :=
    (List.Perm.swap plain nameless [quoted]).trans (.cons plain (.swap quoted nameless []))
  obtain ⟨same, named, -⟩ :=
    keyed_rows_list_fields_in_any_order {} (.str "name") keyed listed perm
  obtain ⟨-, -, absent⟩ :=
    keyed_rows_list_fields_in_any_order {} (.str "want") keyed listed perm
  have found : row'.rowName {} (.str "name") = .ok "case" :=
    named quoted (by simp) _ ⟨read, rfl⟩
  exact ⟨keyed, listed, perm, found, same.symm.trans found, absent (by decide)⟩

end TestRoster
