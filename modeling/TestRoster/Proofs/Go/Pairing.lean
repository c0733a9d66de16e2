import TestRoster.Proofs.Go.Coincidence
import TestRoster.Proofs.Go.Conversion
import TestRoster.Proofs.Syntax.Binding

/-!
The names of a binding and their values.

A binding of several names gives each of them the value in its place, however it is written. A
specification of constants does so for a single name only: the grammar puts the commas between the
names under the same field as the names, so of several constants none has a value.
-/
namespace TestRoster.Go

/-- The ways to write a binding, range clauses apart. -/
inductive BindingForm where
  | shortVariable
  | varSpec
  | constSpec
  | assignment
  deriving DecidableEq, Repr

/-- Names with a comma between each two of them. -/
inductive CommaSeparated : List Cst → List Cst → Prop where
  | last (name : Cst) : CommaSeparated [name] [name]
  | next (name : Cst) {comma : Cst} {names nodes : List Cst} (token : comma.info.anonymous = true)
      (kind : comma.info.kind = ",") (later : CommaSeparated names nodes) :
      CommaSeparated (name :: names) (name :: comma :: nodes)

namespace Cst

/-- That a node binds names to values in a form. Constants are listed with the commas between
them. -/
inductive Binds (c : Cst) : BindingForm → List Cst → List Cst → Prop where
  | shortVariable (kind : c.info.kind = "short_var_declaration") :
      c.Binds .shortVariable (c.partsAt "left") (c.partsAt "right")
  | varSpec (kind : c.info.kind = "var_spec") :
      c.Binds .varSpec (c.allAt "name") (c.partsAt "value")
  | constSpec {names : List Cst} (kind : c.info.kind = "const_spec")
      (listed : CommaSeparated names (c.allAt "name")) :
      c.Binds .constSpec names (c.partsAt "value")
  | assignment (kind : c.info.kind = "assignment_statement")
      (plain : (c.at? "operator").any (·.info.kind == "=") = true) :
      c.Binds .assignment (c.partsAt "left") (c.partsAt "right")

/-- The nodes of a statement that bind names: its specifications, or the statement itself. -/
def bindingNodes (d : Cst) : List Cst :=
  if d.info.kind == "var_declaration" || d.info.kind == "const_declaration" then d.specs
  else if d.info.kind == "short_var_declaration" || d.info.kind == "assignment_statement" then [d]
  else []

end Cst

variable {src : Source} {form : BindingForm} {c d : Cst} {names values nodes : List Cst} {k : Nat}

namespace CommaSeparated

theorem length_eq (listed : CommaSeparated names nodes) : nodes.length + 1 = 2 * names.length := by
  induction listed with
  | last => rfl
  | next name token kind later ih =>
      simp only [List.length_cons]
      omega

theorem subset (listed : CommaSeparated names nodes) : names ⊆ nodes := by
  induction listed with
  | last name => exact List.Subset.refl _
  | next name token kind later ih =>
      exact List.cons_subset_cons name (List.Subset.trans ih (List.subset_cons_self _ _))

theorem eq_of_single (listed : CommaSeparated names nodes) (single : names.length = 1) :
    nodes = names := by
  cases listed with
  | last => rfl
  | next name token kind later =>
      have counted := later.length_eq
      rw [List.length_cons] at single
      omega

end CommaSeparated

mutual

theorem Cst.kind_of_mem_specs {c s : Cst} (h : s ∈ c.specs) :
    s.info.kind = "var_spec" ∨ s.info.kind = "const_spec" := by
  cases c with
  | node i cs => exact Cst.kind_of_mem_specsAmong h

theorem Cst.kind_of_mem_specsAmong {cs : List Cst} {s : Cst} (h : s ∈ Cst.specsAmong cs) :
    s.info.kind = "var_spec" ∨ s.info.kind = "const_spec" := by
  cases cs with
  | nil => cases h
  | cons c rest =>
      rcases List.mem_append.mp h with h | h
      · split at h
        · cases h
        · split at h
          next kind =>
            obtain rfl := List.mem_singleton.mp h
            simpa using kind
          next =>
            split at h
            · exact Cst.kind_of_mem_specs h
            · cases h
      · exact Cst.kind_of_mem_specsAmong h

end

/-- The step of a specification stands among the steps of its declaration. -/
theorem step_of_spec (spec : c.info.kind = "var_spec" ∨ c.info.kind = "const_spec")
    (here : d.bindingNodes[k]? = some c) : (d.steps src)[k]? = some (c.specStep src) := by
  rw [Cst.bindingNodes] at here
  split at here
  next kind =>
    have steps : d.steps src = d.specs.map (Cst.specStep src) := by
      rw [Bool.or_eq_true, beq_iff_eq, beq_iff_eq] at kind
      rcases kind with kind | kind <;> simp [Cst.steps, kind]
    rw [steps, List.getElem?_map, here]
    rfl
  next =>
    split at here
    next kind =>
      obtain rfl := List.mem_singleton.mp (List.mem_of_getElem? here)
      rcases spec with spec | spec <;> simp [spec] at kind
    next => cases here

/-- A node that is a statement of its own is the only binding there. -/
theorem eq_of_statement
    (statement : c.info.kind = "short_var_declaration" ∨ c.info.kind = "assignment_statement")
    (here : d.bindingNodes[k]? = some c) : c = d ∧ k = 0 := by
  rw [Cst.bindingNodes] at here
  split at here
  next =>
    have spec := Cst.kind_of_mem_specs (List.mem_of_getElem? here)
    rcases statement with kind | kind <;> simp [kind] at spec
  next =>
    split at here
    next =>
      obtain ⟨inside, rfl⟩ := List.getElem?_eq_some_iff.mp here
      have first : k = 0 := Nat.lt_one_iff.mp inside
      subst first
      exact ⟨rfl, rfl⟩
    next => cases here

/-- A binding is converted with its names, in their order, or with the commas between its constants
as well. -/
theorem step_of_binds (src : Source) (binds : c.Binds form names values)
    (identifiers : ∀ n ∈ names, n.info.kind = "identifier") (here : d.bindingNodes[k]? = some c) :
    ∃ listed : List Cst, (d.steps src)[k]? = some (.binding c (listed.map (Cst.text src)) values) ∧
      names ⊆ listed ∧
      (if form = .constSpec ∧ 1 < names.length then names.length < listed.length
        else listed = names) := by
  cases binds with
  | shortVariable kind =>
      obtain ⟨rfl, rfl⟩ := eq_of_statement (.inl kind) here
      refine ⟨c.partsAt "left", ?_, List.Subset.refl _, rfl⟩
      simp [Cst.steps, kind, Cst.namesAt]
  | varSpec kind => exact ⟨c.allAt "name", step_of_spec (.inl kind) here, List.Subset.refl _, rfl⟩
  | constSpec kind listed =>
      refine ⟨c.allAt "name", step_of_spec (.inr kind) here, listed.subset, ?_⟩
      have counted := listed.length_eq
      by_cases several : 1 < names.length
      · rw [if_pos ⟨rfl, several⟩]
        omega
      · rw [if_neg fun h => several h.2]
        exact listed.eq_of_single (by omega)
  | assignment kind plain =>
      obtain ⟨rfl, rfl⟩ := eq_of_statement (.inr kind) here
      have rebinds : c.rebinds = true := by
        rw [Cst.rebinds, plain, Bool.true_and, List.all_eq_true]
        exact fun n member => beq_iff_eq.mpr (identifiers n member)
      refine ⟨c.partsAt "left", ?_, List.Subset.refl _, rfl⟩
      simp [Cst.steps, kind, rebinds, Cst.namesAt]

/-- Bindings pair names and values by position: in every scope a name gets the conversion of the
value in its place and is bound to its binding. Of several constants in one specification none gets
a value. -/
theorem names_are_paired_with_values (binds : c.Binds form names values)
    (identifiers : ∀ n ∈ names, n.info.kind = "identifier")
    (distinct : (names.map (Cst.text src)).Nodup) (even : values.length = names.length)
    (here : d.bindingNodes[k]? = some c) :
    ∃ s, (d.stmts src)[k]? = some s ∧ ∀ scope : Scope, ∃ line targets given,
      (s.node scope).1 = .assignment line targets given false ∧
      ∀ (i : Nat) (name value : Cst), names[i]? = some name → values[i]? = some value →
        Node.valueFor? targets given false (.str (name.text src)) =
          .ok (if form = .constSpec ∧ 1 < names.length then .null
            else (value.expr src).node scope) ∧
        (name.text src ≠ "" → name.text src ≠ "_" →
          (s.node scope).2.lookup (name.text src) = some (s.node scope).1) := by
  obtain ⟨listed, step, inside, count⟩ := step_of_binds src binds identifiers here
  refine ⟨.bind (c.line src) (listed.map (Cst.text src)) (values.map (Cst.expr src)), ?_, ?_⟩
  · rw [Reading.stmts_eq, List.getElem?_map, step]
    rfl
  · intro scope
    let given : List Node := values.map fun v => (v.expr src).node scope
    have converted : Expr.nodes scope (values.map (Cst.expr src)) = given := by
      rw [Expr.nodes_eq_map, List.map_map]
      rfl
    refine ⟨c.line src, .list ((listed.map (Cst.text src)).map .str), .nodes given, ?_, ?_⟩
    · rw [Stmt.node, converted, bindingNode]
    · intro i name value named there
      constructor
      · split at count
        next several =>
          rw [if_pos several]
          refine Node.valueFor?_of_uneven ?_ _
          rw [List.length_map, List.length_map]
          omega
        next paired =>
          subst count
          rw [if_neg paired]
          refine Node.valueFor?_of_nodup (i := i) distinct ?_ ?_ ?_
          · rw [List.length_map, List.length_map, even]
          · rw [List.getElem?_map, named]
            rfl
          · rw [List.getElem?_map, there]
            rfl
      · intro some' named'
        have member : name.text src ∈ listed.map (Cst.text src) :=
          List.mem_map_of_mem (inside (List.mem_of_getElem? named))
        rw [Stmt.node, Scope.lookup_bindAll,
          if_pos (mem_bindable.mpr ⟨member, by simp [some', named']⟩)]

/-- The specification `a, b = 1, 2` from a position on. Its comma has this field. -/
def pairSpec (kind : String) (start : Nat) (comma : Option String) : Cst :=
  let leaf (kind : String) (place : Nat) (field : Option String) (anonymous : Bool) : Cst :=
    .node ⟨kind, start + place, start + place + 1, field, anonymous, false, false⟩ []
  .node ⟨kind, start, start + 11, none, false, false, false⟩
    [leaf "identifier" 0 (some "name") false, leaf "," 1 comma true,
      leaf "identifier" 3 (some "name") false, leaf "=" 5 none true,
      .node ⟨"expression_list", start + 7, start + 11, some "value", false, false, false⟩
        [leaf "int_literal" 7 none false, leaf "," 8 none true, leaf "int_literal" 10 none false]]

def declarationOf (keyword : String) (spec : Cst) : Cst :=
  .node ⟨keyword ++ "_declaration", 0, spec.info.stop, none, false, false, false⟩
    [.node ⟨keyword, 0, keyword.length, none, true, false, false⟩ [], spec]

theorem two_variables_are_paired_with_values :
    let src := Source.ofString "var a, b = 1, 2"
    let spec := pairSpec "var_spec" 4 none
    ∃ s line targets given, ((declarationOf "var" spec).stmts src)[0]? = some s ∧
      (s.node []).1 = .assignment line targets given false ∧
      Node.valueFor? targets given false (.str "a") = .ok (.literal 1 (.str "1")) ∧
      Node.valueFor? targets given false (.str "b") = .ok (.literal 1 (.str "2")) ∧
      (s.node []).2.lookup "b" = some (s.node []).1 := by
  intro src spec
  have binds : spec.Binds .varSpec (spec.allAt "name") (spec.partsAt "value") := .varSpec rfl
  have distinct : ((spec.allAt "name").map (Cst.text src)).Nodup := by decide +kernel
  have here : (declarationOf "var" spec).bindingNodes[0]? = some spec := rfl
  obtain ⟨s, there, converted⟩ :=
    names_are_paired_with_values binds (by decide) distinct rfl here
  obtain ⟨line, targets, given, node, each⟩ := converted []
  obtain ⟨first, -⟩ := each 0 _ _ rfl rfl
  obtain ⟨second, bound⟩ := each 1 _ _ rfl rfl
  refine ⟨s, line, targets, given, there, node, ?_, ?_, ?_⟩
  · with_unfolding_all exact first
  · with_unfolding_all exact second
  · with_unfolding_all exact bound (by decide +kernel) (by decide +kernel)

/-- Two constants of one specification have no values, though there are two values. -/
theorem two_constants_are_not_paired_with_values :
    let src := Source.ofString "const a, b = 1, 2"
    let spec := pairSpec "const_spec" 6 (some "name")
    ∃ (names values : List Cst) (s : Stmt) (targets : Datum) (given : Sequence),
      spec.Binds .constSpec names values ∧ names.map (Cst.text src) = ["a", "b"] ∧
      (∀ n ∈ names, n.info.kind = "identifier") ∧
      values.map (fun v => (v.expr src).node []) =
        [.literal 1 (.str "1"), .literal 1 (.str "2")] ∧
      (declarationOf "const" spec).bindingNodes = [spec] ∧
      (declarationOf "const" spec).stmts src = [s] ∧
      (s.node []).1 = .assignment 1 targets given false ∧
      Node.valueFor? targets given false (.str "a") = .ok .null ∧
      Node.valueFor? targets given false (.str "b") = .ok .null := by
  intro src spec
  have listed : CommaSeparated ((spec.allAt "name").eraseIdx 1) (spec.allAt "name") :=
    .next _ rfl rfl (.last _)
  refine ⟨_, _, .bind 1 ["a", ",", "b"] [.literal 1 "1", .literal 1 "2"],
    .list [.str "a", .str ",", .str "b"], .nodes [.literal 1 (.str "1"), .literal 1 (.str "2")],
    .constSpec rfl listed, ?_, by decide, ?_, rfl, ?_, rfl, rfl, rfl⟩
  · decide +kernel
  · with_unfolding_all rfl
  · with_unfolding_all rfl

end TestRoster.Go
