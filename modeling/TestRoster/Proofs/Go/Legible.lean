import Mathlib.Data.List.Basic
import TestRoster.Discovery.File
import TestRoster.Proofs.Discovery.WellFormed
import TestRoster.Proofs.Go.Reading

/-!
Legible sources are discovered without a fault.

A concrete tree is legible if every element with a colon is a pair and every literal denotes a text.
Reading keeps that, and scopes that bind well-formed nodes lead from legible syntax to well-formed
nodes; so the only strict failures are failures to parse.
-/
namespace TestRoster.Go

open Quoted (stripQuotes)

namespace Cst

mutual

/-- Whether every node of a tree passes a check. -/
def all (check : Cst → Bool) : Cst → Bool
  | .node i cs => check (.node i cs) && allAmong check cs

def allAmong (check : Cst → Bool) : List Cst → Bool
  | [] => true
  | c :: cs => all check c && allAmong check cs

end

/-- Whether an element with a colon is a pair, and a literal denotes a text. -/
def denotes (src : Source) (c : Cst) : Bool :=
  (c.info.kind != "keyed_element" || c.parts.length == 2) &&
    (!Reading.literalKinds.contains c.info.kind || (stripQuotes (c.text src)).isOk)

/-- Whether every element with a colon is a pair, and every literal denotes a text. -/
def legible (src : Source) (root : Cst) : Bool :=
  root.all (denotes src)

end Cst

mutual

/-- That every literal in an expression denotes a text, and every element has a known shape. -/
inductive Expr.Legible : Expr → Prop where
  | name {line text} : Expr.Legible (.name line text)
  | fieldName {line text} : Expr.Legible (.fieldName line text)
  | literal {line text s} (denotes : stripQuotes text = .ok s) : Expr.Legible (.literal line text)
  | call {line callee arguments} (each : ∀ a ∈ arguments, Expr.Legible a) :
      Expr.Legible (.call line callee arguments)
  | select {line operand member} (h : operand ≠ .absent → Expr.Legible operand) :
      Expr.Legible (.select line operand member)
  | function {line parameters body} (each : ∀ s ∈ body, Stmt.Legible s) :
      Expr.Legible (.function line parameters body)
  | composite {line elements} (each : ∀ e ∈ elements, Element.Legible e) :
      Expr.Legible (.composite line elements)
  | indirect {line operand} (h : Expr.Legible operand) : Expr.Legible (.indirect line operand)
  | other {line kind text} : Expr.Legible (.other line kind text)

inductive Element.Legible : Element → Prop where
  | keyed {line key value} (hk : Expr.Legible key) (hv : Expr.Legible value) :
      Element.Legible (.keyed line key value)
  | positional {line value} (h : Expr.Legible value) : Element.Legible (.positional line value)

inductive Stmt.Legible : Stmt → Prop where
  | expression {e} (h : Expr.Legible e) : Stmt.Legible (.expression e)
  | bind {line names values} (each : ∀ v ∈ values, Expr.Legible v) :
      Stmt.Legible (.bind line names values)
  | loop {line header body} (clauses : ∀ c ∈ header, Clause.Legible c)
      (each : ∀ s ∈ body, Stmt.Legible s) : Stmt.Legible (.loop line header body)
  | other {line kind text} : Stmt.Legible (.other line kind text)

inductive Clause.Legible : Clause → Prop where
  | range {line names source declares} (h : source ≠ .absent → Expr.Legible source) :
      Clause.Legible (.range line names source declares)
  | before {s} (h : Stmt.Legible s) : Clause.Legible (.before s)

end

namespace Scope

def WellFormed (scope : Scope) : Prop :=
  ∀ frame ∈ scope, ∀ b ∈ frame, b.2.WellFormed

variable {scope : Scope}

theorem WellFormed.push (h : scope.WellFormed) : WellFormed ([] :: scope) :=
  List.forall_mem_cons.mpr ⟨nofun, h⟩

theorem WellFormed.bind (h : scope.WellFormed) {declaration : Node}
    (hd : declaration.WellFormed) (name : String) : (scope.bind declaration name).WellFormed := by
  unfold Scope.bind
  split
  · exact h
  · cases scope with
    | nil => exact List.forall_mem_singleton.mpr (List.forall_mem_singleton.mpr hd)
    | cons frame outer =>
        obtain ⟨first, later⟩ := List.forall_mem_cons.mp h
        exact List.forall_mem_cons.mpr ⟨List.forall_mem_cons.mpr ⟨hd, first⟩, later⟩

theorem WellFormed.bindAll (h : scope.WellFormed) {declaration : Node}
    (hd : declaration.WellFormed) (names : List String) :
    (scope.bindAll names declaration).WellFormed := by
  induction names generalizing scope with
  | nil => exact h
  | cons name rest ih => exact ih (h.bind hd name)

theorem WellFormed.bindParameters (h : scope.WellFormed) (parameters : List Parameter) :
    (Scope.bindParameters parameters scope).WellFormed := by
  induction parameters generalizing scope with
  | nil => exact h
  | cons p rest ih => exact ih (h.bind .other p.name)

theorem WellFormed.lookup (h : scope.WellFormed) {name : String} {declaration : Node}
    (found : scope.lookup name = some declaration) : declaration.WellFormed := by
  obtain ⟨frame, member, bound⟩ := List.exists_of_findSome?_eq_some found
  obtain ⟨before, after, rfl, -⟩ := List.lookup_eq_some_iff.mp bound
  exact h _ member (name, declaration) (by simp)

end Scope

mutual

theorem wellFormed_node {scope : Scope} (h : scope.WellFormed) (e : Expr) (he : e.Legible) :
    (e.node scope).WellFormed := by
  cases e with
  | absent => cases he
  | name line text =>
      rw [Expr.node]
      refine .identifier fun bound => ?_
      cases found : scope.lookup text with
      | none => exact absurd (by rw [found]; rfl) bound
      | some d => exact h.lookup found
  | fieldName line text => exact .identifier fun bound => absurd rfl bound
  | literal line text =>
      cases he with
      | literal denotes => exact .literal denotes
  | call line callee arguments =>
      cases he with
      | call each =>
          rw [Expr.node]
          exact .invocation (wellFormed_nodes h arguments each)
  | select line operand member =>
      cases he with
      | select ho =>
          rw [Expr.node]
          refine .memberAccess fun bound => wellFormed_node h operand (ho fun absent => ?_)
          exact bound (by rw [absent, Expr.node])
  | function line parameters body =>
      cases he with
      | function each =>
          rw [Expr.node]
          exact .closure (wellFormed_block (h.push.bindParameters parameters) body each)
  | composite line elements =>
      cases he with
      | composite each =>
          rw [Expr.node]
          exact .compositeValue (fun e he => (wellFormed_elements h elements each e he).1)
            (fun e he => (wellFormed_elements h elements each e he).2)
  | indirect line operand =>
      cases he with
      | indirect ho =>
          rw [Expr.node]
          exact .indirection (wellFormed_node h operand ho)
  | other line kind text => exact .other

theorem wellFormed_nodes {scope : Scope} (h : scope.WellFormed) (es : List Expr)
    (each : ∀ e ∈ es, e.Legible) : ∀ n ∈ Expr.nodes scope es, n.WellFormed := by
  cases es with
  | nil =>
      intro n hn
      cases hn
  | cons e rest =>
      obtain ⟨first, later⟩ := List.forall_mem_cons.mp each
      rw [Expr.nodes]
      exact List.forall_mem_cons.mpr ⟨wellFormed_node h e first, wellFormed_nodes h rest later⟩

theorem wellFormed_element {scope : Scope} (h : scope.WellFormed) (e : Element)
    (he : e.Legible) : (e.node scope).isRowElement ∧ (e.node scope).WellFormed := by
  cases e with
  | keyed line key value =>
      cases he with
      | keyed hk hv =>
          rw [Element.node]
          exact ⟨rfl, .keyedElement (wellFormed_node h key hk) (wellFormed_node h value hv)⟩
  | positional line value =>
      cases he with
      | positional hv =>
          rw [Element.node]
          exact ⟨rfl, .positionalElement (wellFormed_node h value hv)⟩
  | other line kind text => cases he

theorem wellFormed_elements {scope : Scope} (h : scope.WellFormed) (es : List Element)
    (each : ∀ e ∈ es, e.Legible) :
    ∀ n ∈ Element.nodes scope es, n.isRowElement ∧ n.WellFormed := by
  cases es with
  | nil =>
      intro n hn
      cases hn
  | cons e rest =>
      obtain ⟨first, later⟩ := List.forall_mem_cons.mp each
      rw [Element.nodes]
      exact List.forall_mem_cons.mpr
        ⟨wellFormed_element h e first, wellFormed_elements h rest later⟩

/-- The node of a statement and the scope after it. -/
theorem wellFormed_statement {scope : Scope} (h : scope.WellFormed) (s : Stmt) (hs : s.Legible) :
    (s.node scope).1.WellFormed ∧ (s.node scope).2.WellFormed := by
  cases s with
  | expression e =>
      cases hs with
      | expression he =>
          rw [Stmt.node]
          exact ⟨wellFormed_node h e he, h⟩
  | bind line names values =>
      cases hs with
      | bind each =>
          have bound : (bindingNode line names (Expr.nodes scope values) false).WellFormed :=
            .assignment (wellFormed_nodes h values each)
          rw [Stmt.node]
          exact ⟨bound, h.bindAll bound names⟩
  | loop line header body =>
      cases hs with
      | loop clauses each =>
          rw [Stmt.node]
          exact ⟨.iteration (wellFormed_block (wellFormed_header h h.push .null header clauses)
            body each), h⟩
  | other line kind text => exact ⟨.other, h⟩

theorem wellFormed_block {scope : Scope} (h : scope.WellFormed) (ss : List Stmt)
    (each : ∀ s ∈ ss, s.Legible) : ∀ n ∈ Stmt.nodes scope ss, n.WellFormed := by
  cases ss with
  | nil =>
      intro n hn
      cases hn
  | cons s rest =>
      obtain ⟨first, later⟩ := List.forall_mem_cons.mp each
      obtain ⟨node, after⟩ := wellFormed_statement h s first
      rw [Stmt.nodes]
      exact List.forall_mem_cons.mpr ⟨node, wellFormed_block after rest later⟩

/-- The scope inside a loop. -/
theorem wellFormed_header {outside scope : Scope} (ho : outside.WellFormed)
    (h : scope.WellFormed) (source : Node) (clauses : List Clause)
    (each : ∀ c ∈ clauses, c.Legible) :
    (Clause.header outside scope source clauses).2.WellFormed := by
  match clauses with
  | [] => exact h
  | .range line names e declares :: rest =>
      obtain ⟨first, later⟩ := List.forall_mem_cons.mp each
      have inside {values : List Node} (hv : ∀ v ∈ values, v.WellFormed) :
          (if declares then scope.bindAll names (bindingNode line names values true)
            else scope).WellFormed := by
        split
        · exact h.bindAll (.assignment hv) names
        · exact h
      cases first with
      | range hs =>
          -- a clause without a source binds its names to no values
          by_cases absent : e = .absent
          · rw [absent, Clause.header]
            exact wellFormed_header ho (inside (by simp)) _ rest later
          · rw [Clause.header]
            · have value := wellFormed_node ho e (hs absent)
              exact wellFormed_header ho (inside (List.forall_mem_singleton.mpr value)) _ rest later
            · exact absent
  | .before s :: rest =>
      obtain ⟨first, later⟩ := List.forall_mem_cons.mp each
      cases first with
      | before hs =>
          rw [Clause.header]
          exact wellFormed_header ho (wellFormed_statement h s hs).2 source rest later

end

structure Reading.Legible (r : Reading) : Prop where
  expression : r.expression.Legible
  expressions : ∀ e ∈ r.expressions, e.Legible
  element : r.element.Legible
  elements : ∀ e ∈ r.elements, e.Legible
  spec : r.spec.Legible
  specs : ∀ s ∈ r.specs, s.Legible
  statements : ∀ s ∈ r.statements, s.Legible
  partStatements : ∀ s ∈ r.partStatements, s.Legible
  block : ∀ s ∈ r.block, s.Legible
  clauses : ∀ c ∈ r.clauses, c.Legible
  function : ∀ f ∈ r.function, ∀ s ∈ f.body, s.Legible

namespace Reading

section

variable {src : Source} {i : Info} {children : List Reading} (each : ∀ c ∈ children, c.Legible)

include each

theorem legible_named {c : Reading} (h : c ∈ named children) : c.Legible :=
  each c (List.mem_filter.mp h).1

theorem legible_at? {field : String} {c : Reading} (h : at? children field = some c) :
    c.Legible :=
  each c (List.mem_of_find?_eq_some h)

theorem legible_expressionsAt (field : String) :
    ∀ e ∈ expressionsAt children field, e.Legible := by
  unfold expressionsAt
  cases h : at? children field with
  | none => exact fun e he => by cases he
  | some c => exact (legible_at? each h).expressions

theorem legible_blockAt (field : String) : ∀ s ∈ blockAt children field, s.Legible := by
  unfold blockAt
  cases h : at? children field with
  | none => exact fun s hs => by cases hs
  | some c => exact (legible_at? each h).block

theorem legible_expressionAt {field : String} (present : expressionAt children field ≠ .absent) :
    (expressionAt children field).Legible := by
  unfold expressionAt at present ⊢
  cases h : at? children field with
  | none => exact absurd (by rw [h]; rfl) present
  | some c => exact (legible_at? each h).expression

theorem legible_elementsOf : ∀ e ∈ elementsOf children, e.Legible :=
  List.forall_mem_map.mpr fun _ hc => (legible_named each hc).element

omit each in
theorem legible_ite {q : Prop} [Decidable q] {e f : Expr} (he : q → e.Legible) (hf : f.Legible) :
    (if q then e else f).Legible := by
  split
  · exact he ‹_›
  · exact hf

theorem legible_expressionOf
    (denotes : literalKinds.contains i.kind → ∃ s, stripQuotes (textOf src i) = .ok s) :
    (expressionOf src i children).Legible := by
  have kept : (Expr.other (lineOf src i) i.kind (otherText src i)).Legible := .other
  unfold expressionOf
  -- the kinds are tried in the order of the reading; what is kept as it is written is legible
  refine legible_ite ?inner (legible_ite (fun _ => .name) (legible_ite (fun _ => .fieldName)
    (legible_ite ?literal (legible_ite (fun _ => .call (legible_expressionsAt each _))
    (legible_ite (fun _ => .select (legible_expressionAt each))
    (legible_ite (fun _ => .function (legible_blockAt each _)) (legible_ite ?composite
    (legible_ite (fun _ => .composite (legible_elementsOf each)) (legible_ite ?unary kept)))))))))
  case inner =>
      intro _
      cases h : named children with
      | nil => exact kept
      | cons inner rest => exact (legible_named each (by simp [h])).expression
  case literal =>
      intro literal
      obtain ⟨s, text⟩ := denotes literal
      exact .literal text
  case composite =>
      refine fun _ => .composite ?_
      cases h : at? children "body" with
      | none => exact fun e he => by cases he
      | some c => exact (legible_at? each h).elements
  case unary =>
      intro _
      cases at? children "operator" with
      | none => exact kept
      | some operator =>
          cases found : at? children "operand" with
          | none => exact kept
          | some operand =>
              exact legible_ite (fun _ => .indirect (legible_at? each found).expression) kept

theorem legible_elementOf {expression : Expr} (he : expression.Legible)
    (pair : i.kind = "keyed_element" → (named children).length = 2) :
    (elementOf src i children expression).Legible := by
  unfold elementOf
  dsimp only
  split
  · rename_i colon
    obtain ⟨key, value, parts⟩ := List.length_eq_two.mp (pair (beq_iff_eq.mp colon))
    rw [parts]
    exact .keyed (legible_named each (by simp [parts])).expression
      (legible_named each (by simp [parts])).expression
  · exact .positional he

theorem legible_specsOf : ∀ s ∈ specsOf children, s.Legible := by
  intro s hs
  obtain ⟨c, hc, hs⟩ := List.mem_flatMap.mp hs
  have part := legible_named each hc
  split at hs
  · obtain rfl := List.mem_singleton.mp hs
    exact part.spec
  · split at hs
    · exact part.specs s hs
    · cases hs

theorem legible_statementsOf : ∀ s ∈ statementsOf src i children, s.Legible := by
  intro s hs
  unfold statementsOf at hs
  dsimp only at hs
  split at hs
  · obtain ⟨c, hc, rfl⟩ := List.mem_map.mp hs
    exact .expression (legible_named each hc).expression
  split at hs
  · obtain rfl := List.mem_singleton.mp hs
    refine .loop (fun k hk => ?_) (legible_blockAt each _)
    obtain ⟨c, hc, hk⟩ := List.mem_flatMap.mp hk
    exact (legible_named each hc).clauses k hk
  split at hs
  · obtain rfl := List.mem_singleton.mp hs
    exact .bind (legible_expressionsAt each _)
  split at hs
  · exact legible_specsOf each s hs
  split at hs
  · obtain rfl := List.mem_singleton.mp hs
    unfold assignmentOf
    dsimp only
    split
    · exact .bind (legible_expressionsAt each _)
    · exact .other
  · obtain rfl := List.mem_singleton.mp hs
    exact .other

theorem legible_clausesOf : ∀ c ∈ clausesOf src i children, c.Legible := by
  intro k hk
  unfold clausesOf at hk
  split at hk
  · obtain rfl := List.mem_singleton.mp hk
    exact .range (legible_expressionAt each)
  split at hk
  · obtain ⟨s, hs, rfl⟩ := List.mem_map.mp hk
    cases h : at? children "initializer" with
    | none => simp [h] at hs
    | some c =>
        rw [h] at hs
        exact .before ((legible_at? each h).statements s hs)
  · cases hk

theorem legible_functionOf :
    ∀ f ∈ functionOf src i children, ∀ s ∈ f.body, s.Legible := by
  intro f hf
  unfold functionOf at hf
  dsimp only at hf
  split at hf
  · obtain rfl := Option.some.inj hf
    exact legible_blockAt each _
  split at hf
  · obtain rfl := Option.some.inj hf
    exact legible_blockAt each _
  · cases hf

/-- The readings of a node are legible if those of its children are. -/
theorem legible_combine (pair : i.kind = "keyed_element" → (named children).length = 2)
    (denotes : literalKinds.contains i.kind → ∃ s, stripQuotes (textOf src i) = .ok s) :
    (combine src i children).Legible where
  expression := legible_expressionOf each denotes
  expressions := List.forall_mem_map.mpr fun c hc => (legible_named each hc).expression
  element := legible_elementOf each (legible_expressionOf each denotes) pair
  elements := legible_elementsOf each
  spec := .bind (legible_expressionsAt each _)
  specs := legible_specsOf each
  statements := legible_statementsOf each
  partStatements := by
    intro s hs
    obtain ⟨c, hc, hs⟩ := List.mem_flatMap.mp hs
    exact (legible_named each hc).statements s hs
  block := by
    intro s hs
    obtain ⟨c, hc, hs⟩ := List.mem_flatMap.mp hs
    split at hs
    · exact (legible_named each hc).partStatements s hs
    · exact (legible_named each hc).statements s hs
  clauses := legible_clausesOf each
  function := legible_functionOf each

end

mutual

theorem legible_ofCst (src : Source) (c : Cst) (h : c.legible src) : (ofCst src c).Legible := by
  cases c with
  | node i cs =>
      obtain ⟨here, below⟩ := Bool.and_eq_true_iff.mp h
      obtain ⟨pair, literal⟩ := Bool.and_eq_true_iff.mp here
      rw [ofCst]
      refine legible_combine (legible_ofCsts src cs below) (fun kind => ?_) (fun kind => ?_)
      · have parts : named (ofCsts src cs) = (Cst.node i cs).parts.map (ofCst src) := by
          rw [ofCsts_eq_map]
          exact named_map src (.node i cs)
        rw [parts, List.length_map]
        simpa [Cst.info, kind] using pair
      · rw [Cst.info, kind] at literal
        have text : (Cst.node i cs).text src = textOf src i := rfl
        rw [text] at literal
        cases stripped : stripQuotes (textOf src i) with
        | error cause => simp [stripped, Except.isOk, Except.toBool] at literal
        | ok s => exact ⟨s, rfl⟩

theorem legible_ofCsts (src : Source) (cs : List Cst) (h : Cst.allAmong (Cst.denotes src) cs) :
    ∀ r ∈ ofCsts src cs, r.Legible := by
  cases cs with
  | nil =>
      intro r hr
      cases hr
  | cons c rest =>
      obtain ⟨first, later⟩ := Bool.and_eq_true_iff.mp h
      rw [ofCsts]
      exact List.forall_mem_cons.mpr ⟨legible_ofCst src c first, legible_ofCsts src rest later⟩

end

end Reading

/-- That every binding and every body is legible. -/
structure File.Legible (file : File) : Prop where
  bindings : ∀ s ∈ file.bindings, s.Legible
  functions : ∀ f ∈ file.functions, ∀ s ∈ f.body, s.Legible

theorem File.legible_ofCst {src : Source} {root : Cst} (h : root.legible src) :
    (File.ofCst src root).Legible := by
  have parts {c : Reading} (hc : c ∈ Reading.named (Reading.ofCsts src root.children)) :
      c.Legible := by
    cases root with
    | node i cs =>
        exact Reading.legible_named
          (Reading.legible_ofCsts src cs (Bool.and_eq_true_iff.mp h).2) hc
  constructor
  · intro s hs
    obtain ⟨c, hc, hs⟩ := List.mem_flatMap.mp hs
    split at hs
    · exact (parts hc).specs s hs
    · cases hs
  · intro f hf
    obtain ⟨c, hc, declared⟩ := List.mem_filterMap.mp hf
    exact (parts hc).function f declared

theorem Scope.WellFormed.after {scope : Scope} (h : scope.WellFormed) {ss : List Stmt}
    (each : ∀ s ∈ ss, s.Legible) :
    (ss.foldl (fun scope s => (s.node scope).2) scope).WellFormed := by
  induction ss generalizing scope with
  | nil => exact h
  | cons s rest ih =>
      obtain ⟨first, later⟩ := List.forall_mem_cons.mp each
      exact ih (wellFormed_statement h s first).2 later

theorem File.Legible.scope {file : File} (h : file.Legible) : file.scope.WellFormed := by
  have empty : Scope.WellFormed [] := fun frame member => by cases member
  exact empty.push.after h.bindings

/-- The declarations of a legible file are well formed. -/
theorem File.Legible.declarations {file : File} (h : file.Legible) :
    ∀ d ∈ file.declarations, d.WellFormed := by
  refine List.forall_mem_map.mpr fun f hf => ?_
  exact .declaration (wellFormed_block (h.scope.push.bindParameters f.parameters) f.body
    (h.functions f hf))

end TestRoster.Go

namespace TestRoster

/-- Strict discovery raises no false alarm. If a source has no syntax error, every element with a
colon is a pair and every literal denotes a text, discovery succeeds, reports no unexpected shape
and does the same whether it is strict or not. -/
theorem strict_discovery_raises_no_false_alarm (cfg : Config) (mode : Mode) (src : Go.Source)
    (path : String) (root : Go.Cst) (parsed : root.info.flagged = false)
    (legible : root.legible src) :
    ∃ found log, (∀ strict, FileOutcome.ofCst (cfg.withStrict strict) mode src path root =
        ⟨.ok found, log⟩) ∧
      ∀ issue ∈ found.issues, issue.isUnexpectedShape = false := by
  obtain ⟨found, log, same, issues⟩ := Discovery.ofDeclarations_wellFormed cfg mode path
    (Go.File.legible_ofCst legible).declarations
  refine ⟨found, log, fun strict => ?_, issues⟩
  have tree : SourceTree.ofCst src path (cfg.withStrict strict).tolerateSyntaxErrors root =
      .ok (SourceTree.build src path root, []) := by
    rw [SourceTree.ofCst, parsed]
    rfl
  rw [FileOutcome.ofCst, tree, FileOutcome.ofParsed, FileOutcome.ofTree]
  dsimp only
  rw [SourceTree.build, same strict]
  rfl

/-- A test that launches one subtest, with a table of one pair. -/
theorem strict_discovery_of_pair_raises_no_false_alarm :
    let src := Go.Source.ofString "TestA\x60k\x60t.Run1:2"
    let argument : Go.Cst := .node ⟨"raw_string_literal", 5, 8, none, false, false, false⟩ []
    let pair : Go.Cst := .node ⟨"keyed_element", 13, 16, none, false, false, false⟩
      [.node ⟨"int_literal", 13, 14, none, false, false, false⟩ [],
        .node ⟨":", 14, 15, none, true, false, false⟩ [],
        .node ⟨"int_literal", 15, 16, none, false, false, false⟩ []]
    let callee : Go.Cst :=
      .node ⟨"selector_expression", 8, 13, some "function", false, false, false⟩
      [.node ⟨"field_identifier", 10, 13, some "field", false, false, false⟩ []]
    let launch : Go.Cst := .node ⟨"call_expression", 5, 16, none, false, false, false⟩
      [callee, .node ⟨"argument_list", 5, 16, some "arguments", false, false, false⟩
        [argument, .node ⟨"literal_value", 13, 16, none, false, false, false⟩ [pair]]]
    let test : Go.Cst := .node ⟨"function_declaration", 0, 16, none, false, false, false⟩
      [.node ⟨"identifier", 0, 5, some "name", false, false, false⟩ [],
        .node ⟨"block", 5, 16, some "body", false, false, false⟩
          [.node ⟨"expression_statement", 5, 16, none, false, false, false⟩ [launch]]]
    let root : Go.Cst := .node ⟨"source_file", 0, 16, none, false, false, false⟩ [test]
    root.info.flagged = false ∧ root.legible src ∧
      ∃ found log, (∀ strict, FileOutcome.ofCst (({} : Config).withStrict strict) .tests src
          "a_test.go" root = ⟨.ok found, log⟩) ∧
        (∀ issue ∈ found.issues, issue.isUnexpectedShape = false) ∧
        found.tests.map TestCase.name = ["TestA", "TestA/k"] := by
  intro src argument pair callee launch test root
  have legible : root.legible src = true := by decide +kernel
  obtain ⟨found, log, same, issues⟩ :=
    strict_discovery_raises_no_false_alarm {} .tests src "a_test.go" root rfl legible
  refine ⟨rfl, legible, found, log, same, issues, ?_⟩
  have told : (FileOutcome.ofCst (({} : Config).withStrict false) .tests src "a_test.go"
      root).result.toOption.map (fun d => d.tests.map TestCase.name) =
        some ["TestA", "TestA/k"] := by decide +kernel
  rw [same] at told
  exact Option.some.inj told

end TestRoster
