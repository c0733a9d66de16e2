import TestRoster.Discovery.File
import TestRoster.Proofs.Discovery.Nesting
import TestRoster.Proofs.Go.Block

/-!
How current the declarations of identifiers are.

A tree and its source are walked in step: the node at a path, through the parts of nodes and the
links of identifiers, is what the builder makes of the place at the same path. A link leads to the
latest assignment of the name that is followed before the identifier, so every name that is read off
a launch is the text of a literal that its argument leads to through such assignments alone.
-/
namespace TestRoster

open Relation

namespace Node

/-- The nodes that a node is written with, in order, and the assignment that an identifier is linked
to. -/
def children : Node → List Node
  | .identifier _ _ (.assignment line targets values ranged) =>
      [.assignment line targets values ranged]
  | .memberAccess _ n _ | .indirection _ n | .positionalElement _ n => [n]
  | .invocation _ callee arguments => callee :: arguments.members
  | .keyedElement _ key value => [key, value]
  | .compositeValue _ field | .assignment _ _ field _ | .closure _ field | .declaration _ _ field
    _ =>
      field.members
  | .iteration _ source body => source :: body.members
  | _ => []

def at? : List Nat → Node → Option Node
  | [], n => some n
  | k :: path, n => n.children[k]?.bind (at? path)

/-- That a node stands for what one of its children stands for. -/
def PassesOn : Node → Prop
  | .identifier .. | .indirection .. | .keyedElement .. | .positionalElement .. | .compositeValue ..
  | .assignment .. => True
  | _ => False

theorem Holds.mem_children {n m : Node} (h : Holds n m) : m ∈ n.children := by
  cases h with
  | target | operand | positionalValue | key | callee | source => exact .head _
  | keyedValue => exact .tail _ (.head _)
  | argument h | loopBody h => exact .tail _ h
  | element h | value h | closureBody h | functionBody h => exact h

theorem exists_path {n m : Node} (h : ReflTransGen Holds n m) : ∃ path, n.at? path = some m := by
  induction h using ReflTransGen.head_induction_on with
  | refl => exact ⟨[], rfl⟩
  | head holds _ ih =>
      obtain ⟨path, found⟩ := ih
      obtain ⟨k, child⟩ := List.mem_iff_getElem?.mp holds.mem_children
      refine ⟨k :: path, ?_⟩
      rw [at?, child]
      exact found

/-- A step towards what a node stands for leads to a child, or to a declaration that is no
assignment. -/
theorem Leads.passesOn {n m : Node} (h : Leads n m) :
    n.PassesOn ∧ (m ∈ n.children ∨ ∃ line name, n = .identifier line name m) := by
  refine ⟨by cases h <;> trivial, ?_⟩
  cases h with
  | declared => exact .inr ⟨_, _, rfl⟩
  | operand | positionalValue | key => exact .inl (.head _)
  | keyedValue => exact .inl (.tail _ (.head _))
  | element h | value h => exact .inl h

/-- What a body is resolved to is what its account tells. -/
theorem eq_of_resolve {cfg : Config} {parent : String} {body : Sequence} {r : Resolution}
    (h : (resolve cfg parent body).result = .ok r) :
    r = .ofFindings (bodyFindings cfg parent body) := by
  rw [resolve_eq, Step.ofAccount_ok] at h
  cases obstacle : Finding.obstacle? cfg.strict (bodyFindings cfg parent body) with
  | some cause => simp [Finding.outcome, obstacle] at h
  | none => simpa [Finding.outcome, obstacle] using h.symm

end Node

namespace Go

/-- That a part is there for another one, which the builder makes the same node of. -/
inductive Part.Opens : Part → Part → Prop where
  | place {c} : Opens (.place (some c)) (.expression c)
  | inner {c e} (form : c.form = .inner e) : Opens (.expression c) (.expression e)

def Part.clause? : Part → Option Cst
  | .range clause => some clause
  | _ => none

/-- What a loop ranges over: the right side of its last range clause. -/
def Cst.source? (src : Source) (c : Cst) : Option Cst :=
  ((c.header src).filterMap Part.clause?).getLast?.bind (·.at? "right")

namespace Spot

/-- The part of a place at a position, and the assignment that an identifier is linked to. -/
inductive Child (src : Source) : Spot → Nat → Spot → Prop where
  | linked {scopes u spot} (form : u.form = .name)
      (latest : Latest src (u.text src) scopes spot) :
      Child src ⟨scopes, .expression u⟩ 0 spot
  | callee {scopes c callee arguments} (form : c.form = .call callee arguments) :
      Child src ⟨scopes, .expression c⟩ 0 ⟨scopes, .place callee⟩
  | argument {scopes c callee arguments i a} (form : c.form = .call callee arguments)
      (found : arguments[i]? = some a) :
      Child src ⟨scopes, .expression c⟩ (i + 1) ⟨scopes, .expression a⟩
  | operand {scopes c operand field} (form : c.form = .select operand field) :
      Child src ⟨scopes, .expression c⟩ 0 ⟨scopes, .place operand⟩
  | function {scopes c parameters statements i s} (form : c.form = .function parameters statements)
      (step : (Block.ofFunction src parameters statements).steps[i]? = some s) :
      Child src ⟨scopes, .expression c⟩ i
        ⟨(.ofFunction src parameters statements, i) :: scopes, s⟩
  | composite {scopes c elements i e} (form : c.form = .composite elements)
      (found : elements[i]? = some e) :
      Child src ⟨scopes, .expression c⟩ i ⟨scopes, .element e⟩
  | indirect {scopes c operand} (form : c.form = .indirect operand) :
      Child src ⟨scopes, .expression c⟩ 0 ⟨scopes, .expression operand⟩
  | keyed {scopes c i p} (kind : c.info.kind = "keyed_element") (count : c.parts.length = 2)
      (found : c.parts[i]? = some p) :
      Child src ⟨scopes, .element c⟩ i ⟨scopes, .expression p⟩
  | positional {scopes c} (kind : c.info.kind ≠ "keyed_element") :
      Child src ⟨scopes, .element c⟩ 0 ⟨scopes, .expression c⟩
  | value {scopes site names values i v} (found : values[i]? = some v) :
      Child src ⟨scopes, .binding site names values⟩ i ⟨scopes, .expression v⟩
  | ranged {scopes clause e} (found : clause.at? "right" = some e) :
      Child src ⟨scopes, .range clause⟩ 0 ⟨scopes.tail, .expression e⟩
  | source {scopes c} : Child src ⟨scopes, .loop c⟩ 0 ⟨scopes, .place (c.source? src)⟩
  | loopBody {scopes c i s}
      (step : (Block.ofLoop src c).steps[(c.header src).length + i]? = some s) :
      Child src ⟨scopes, .loop c⟩ (i + 1)
        ⟨(.ofLoop src c, (c.header src).length + i) :: scopes, s⟩
  | functionBody {scopes c i s}
      (step : (Block.ofFunction src c.parameters (c.statementsAt "body")).steps[i]? = some s) :
      Child src ⟨scopes, .declaration c⟩ i
        ⟨(.ofFunction src c.parameters (c.statementsAt "body"), i) :: scopes, s⟩

/-- The place at a path. -/
inductive At (src : Source) : Spot → List Nat → Spot → Prop where
  | here {p} : At src p [] p
  | opened {scopes s t path r} (opens : s.Opens t) (h : At src ⟨scopes, t⟩ path r) :
      At src ⟨scopes, s⟩ path r
  | child {p k q path r} (child : p.Child src k q) (h : At src q path r) : At src p (k :: path) r

/-- That a place stands for a literal. -/
inductive LeadsTo (src : Source) : Spot → Cst → Prop where
  | literal {scopes c} (form : c.form = .literal) : LeadsTo src ⟨scopes, .expression c⟩ c
  | opened {scopes s t l} (opens : s.Opens t) (h : LeadsTo src ⟨scopes, t⟩ l) :
      LeadsTo src ⟨scopes, s⟩ l
  | child {p k q l} (passes : (p.node src).PassesOn) (child : p.Child src k q)
      (h : LeadsTo src q l) : LeadsTo src p l

/-- The text of a literal that an argument, or the operand of a selector in its place, leads to. -/
def Tells (src : Source) (p : Spot) (s : String) : Prop :=
  ∃ l, Quoted.stripQuotes (l.text src) = .ok s ∧
    (p.LeadsTo src l ∨ ∃ scopes c operand field, p.At src [] ⟨scopes, .expression c⟩ ∧
      c.form = .select operand field ∧ LeadsTo src ⟨scopes, .place operand⟩ l)

/-- That a launch on this line stands in a place, whose argument tells this text. -/
def Launches (src : Source) (cfg : Config) (p : Spot) (s : String) (line : Int) : Prop :=
  ∃ path scopes c callee argument rest, p.At src path ⟨scopes, .expression c⟩ ∧
    c.form = .call callee (argument :: rest) ∧ line = c.line src ∧
    (node src ⟨scopes, .place callee⟩).isLaunch cfg = true ∧
    Tells src ⟨scopes, .expression argument⟩ s

/-- A function of a file, behind all package-level bindings. -/
def ofFunction (src : Source) (root c : Cst) : Spot :=
  ⟨[(.ofFile src root, (root.packageSteps src).length)], .declaration c⟩

end Spot

section

variable {src : Source}

theorem Part.Opens.node_eq {s t : Part} (h : s.Opens t) (ctx : List Layer) :
    s.node src ctx = t.node src ctx := by
  cases h with
  | place => rfl
  | inner form => exact Part.node_form src ctx form

theorem Surroundings.layers_tail (scopes : Surroundings) :
    layers src scopes.tail = (layers src scopes).tail := by
  cases scopes <;> rfl

/-- The sources of the range clauses of a header are read outside the loop. -/
theorem rangesOver_blockNodes (ctx : List Layer) (initial : Layer) (header : List Part) :
    ((header.zip (Part.blockNodes src ctx initial header)).filterMap fun s => s.1.rangesOver? s.2) =
      (header.filterMap Part.clause?).map fun clause =>
        (Part.place (clause.at? "right")).node src ctx := by
  induction header generalizing initial with
  | nil => rfl
  | cons s rest ih =>
      rw [Part.blockNodes_cons, List.zip_cons_cons]
      cases s with
      | range clause =>
          have source : (Part.range clause).rangesOver?
              ((Part.range clause).node src (initial :: ctx)) =
                some ((Part.place (clause.at? "right")).node src ctx) := by
            rw [Part.node_range]
            cases clause.at? "right" <;> rfl
          simp only [List.filterMap_cons, source, ih, Part.clause?, List.map_cons]
      | place | expression | element | binding | loop | declaration | kept => exact ih _

theorem loopSource_eq (ctx : List Layer) (initial : Layer) (c : Cst) :
    loopSource (c.header src) (Part.blockNodes src ctx initial (c.header src)) =
      (Part.place (c.source? src)).node src ctx := by
  rw [loopSource, rangesOver_blockNodes, List.getLast?_map, Cst.source?]
  cases ((c.header src).filterMap Part.clause?).getLast? <;> rfl

theorem Block.nodes_ofLoop (ctx : List Layer) (c : Cst) :
    (Block.ofLoop src c).nodes src ctx =
      Part.blockNodes src ctx [] (c.header src) ++
        Part.blockNodes src ctx
          (.made src (c.header src) (Part.blockNodes src ctx [] (c.header src))) (c.body src) :=
  Layer.run_append ..

namespace Spot

theorem At.append {p q r : Spot} {xs ys : List Nat} (h : p.At src xs q) (k : q.At src ys r) :
    p.At src (xs ++ ys) r := by
  induction h with
  | here => exact k
  | opened opens _ ih => exact .opened opens (ih k)
  | child child _ ih => exact .child child (ih k)

theorem LeadsTo.of_at {p q : Spot} {l : Cst} (h : q.LeadsTo src l) (k : p.At src [] q) :
    p.LeadsTo src l := by
  generalize none : ([] : List Nat) = path at k
  induction k with
  | here => exact h
  | opened opens _ ih => exact .opened opens (ih h none)
  | child => cases none

def Plain (p : Spot) : Prop :=
  ∀ t, ¬ p.part.Opens t

/-- An expression is opened until nothing is left to open. -/
theorem exists_opened_expression (src : Source) (scopes : Surroundings) (c : Cst) :
    ∃ e, At src ⟨scopes, .expression c⟩ [] ⟨scopes, .expression e⟩ ∧
      Plain ⟨scopes, .expression e⟩ ∧
      node src ⟨scopes, .expression c⟩ = node src ⟨scopes, .expression e⟩ := by
  cases form : c.form with
  | inner e =>
      have opens := Part.Opens.inner form
      obtain ⟨f, found, plain, same⟩ := exists_opened_expression src scopes e
      exact ⟨f, .opened opens found, plain, (opens.node_eq _).trans same⟩
  | name | fieldName | literal | call | select | function | composite | indirect | kept =>
      refine ⟨c, .here, fun t opens => ?_, rfl⟩
      cases opens with
      | inner inner => cases form.symm.trans inner
termination_by sizeOf c
decreasing_by exact c.below_form e (by simp [form, Form.parts])

theorem exists_opened (src : Source) (p : Spot) :
    ∃ q, p.At src [] q ∧ q.Plain ∧ p.node src = q.node src := by
  obtain ⟨scopes, part⟩ := p
  cases part with
  | place c =>
      cases c with
      | none => exact ⟨_, .here, nofun, rfl⟩
      | some c =>
          obtain ⟨e, found, plain, same⟩ := exists_opened_expression src scopes c
          exact ⟨_, .opened .place found, plain, same⟩
  | expression c =>
      obtain ⟨e, found, plain, same⟩ := exists_opened_expression src scopes c
      exact ⟨_, found, plain, same⟩
  | element | binding | range | loop | declaration | kept => exact ⟨_, .here, nofun, rfl⟩

def OfExpression : Node → Prop
  | .literal .. | .identifier .. | .memberAccess .. | .invocation .. => True
  | _ => False

/-- A place whose node is a literal, a name, a selector or a call is an expression. -/
theorem exists_expression {p : Spot} (plain : p.Plain) (h : OfExpression (p.node src)) :
    ∃ c, p = ⟨p.scopes, .expression c⟩ := by
  obtain ⟨scopes, part⟩ := p
  cases part with
  | expression c => exact ⟨c, rfl⟩
  | place c =>
      cases c with
      | none => exact h.elim
      | some c => exact absurd .place (plain _)
  | element c =>
      refine absurd h ?_
      by_cases kind : c.info.kind = "keyed_element"
      · match parts : c.parts with
        | [key, value] =>
            rw [node, Part.node_keyed src _ kind parts]
            exact id
        | [] | [_] | _ :: _ :: _ :: _ =>
            rw [node, Part.node_keptElement src _ kind (by simp [parts])]
            exact id
      · rw [node, Part.node_positional src _ kind]
        exact id
  | binding site names values =>
      rw [node, Part.node_binding] at h
      exact h.elim
  | loop c =>
      rw [node, Part.node_loop] at h
      exact h.elim
  | range | declaration | kept => exact h.elim

theorem converts_expression (src : Source) (scopes : Surroundings) (c : Cst) :
    Converts src (scopes.layers src) (.expression c) (node src ⟨scopes, .expression c⟩) :=
  (made src (sizeOf c + 1) c (Nat.lt_succ_self _) _).1

/-- A place with the node of an expression is an expression that the builder converts to the node
by a rule of its own. -/
theorem exists_converts {p : Spot} (plain : p.Plain) {n : Node} (h : p.node src = n)
    (kind : OfExpression n) :
    ∃ c, p = ⟨p.scopes, .expression c⟩ ∧ (∀ e, c.form ≠ .inner e) ∧
      Converts src (p.scopes.layers src) (.expression c) n := by
  subst h
  obtain ⟨c, expression⟩ := exists_expression plain kind
  rw [expression] at plain ⊢
  exact ⟨c, rfl, fun e form => plain _ (.inner form), converts_expression src p.scopes c⟩

theorem form_of_node_literal {p : Spot} (plain : p.Plain) {line : Int} {text : Datum}
    (h : p.node src = .literal line text) :
    ∃ c, p = ⟨p.scopes, .expression c⟩ ∧ c.form = .literal ∧ text = .str (c.text src) := by
  obtain ⟨c, expression, outermost, converted⟩ := exists_converts plain h trivial
  clear h
  generalize around : p.scopes.layers src = ctx at converted
  cases converted with
  | inner form => exact absurd form (outermost _)
  | literal form => exact ⟨c, expression, form, rfl⟩

theorem form_of_node_identifier {p : Spot} (plain : p.Plain) {line : Int} {name : Datum} {d : Node}
    (h : p.node src = .identifier line name d) :
    d = .null ∨ IsParameter d ∨ ∃ u spot, p = ⟨p.scopes, .expression u⟩ ∧ u.form = .name ∧
      line = u.line src ∧ name = .str (u.text src) ∧ Latest src (u.text src) p.scopes spot ∧
      spot.node src = d := by
  obtain ⟨u, expression, outermost, converted⟩ := exists_converts plain h trivial
  clear h
  generalize around : p.scopes.layers src = ctx at converted
  cases converted with
  | inner form => exact absurd form (outermost _)
  | unbound | fieldName => exact .inl rfl
  | bound form found =>
      rcases latest_of_finds (around ▸ found) with ⟨spot, latest, node⟩ | parameter
      · exact .inr (.inr ⟨u, spot, expression, form, rfl, rfl, latest, node⟩)
      · exact .inr (.inl parameter)

theorem form_of_node_memberAccess {p : Spot} (plain : p.Plain) {line : Int} {target : Node}
    {member : Datum} (h : p.node src = .memberAccess line target member) :
    ∃ c operand field, p = ⟨p.scopes, .expression c⟩ ∧ c.form = .select operand field ∧
      node src ⟨p.scopes, .place operand⟩ = target := by
  obtain ⟨c, expression, outermost, converted⟩ := exists_converts plain h trivial
  clear h
  generalize around : p.scopes.layers src = ctx at converted
  cases converted with
  | inner form => exact absurd form (outermost _)
  | select form h =>
      subst around
      exact ⟨c, _, _, expression, form, h.eq_node.symm⟩

theorem form_of_node_invocation {p : Spot} (plain : p.Plain) {line : Int} {f : Node}
    {field : Sequence} (h : p.node src = .invocation line f field) :
    ∃ c callee arguments, p = ⟨p.scopes, .expression c⟩ ∧ c.form = .call callee arguments ∧
      line = c.line src ∧ node src ⟨p.scopes, .place callee⟩ = f ∧
      field = .nodes (arguments.map fun a => node src ⟨p.scopes, .expression a⟩) := by
  obtain ⟨c, expression, outermost, converted⟩ := exists_converts plain h trivial
  clear h
  generalize around : p.scopes.layers src = ctx at converted
  cases converted with
  | inner form => exact absurd form (outermost _)
  | call form called count each =>
      subst around
      refine ⟨c, _, _, expression, form, rfl, called.eq_node.symm, congrArg Sequence.nodes ?_⟩
      exact (eq_map_iff _ _ _).mpr ⟨count, fun i a n ha hn => (each i a n ha hn).eq_node⟩

theorem exists_of_getElem?_map {α : Type} {xs : List α} {g : α → Node} {k : Nat} {m : Node}
    (h : (xs.map g)[k]? = some m) : ∃ x, xs[k]? = some x ∧ g x = m := by
  rw [List.getElem?_map] at h
  exact Option.map_eq_some_iff.mp h

/-- The only child of an identifier is the assignment that it is linked to. -/
theorem exists_child_name {p : Spot} (plain : p.Plain) {line : Int} {name : Datum} {d m : Node}
    {k : Nat} (same : p.node src = .identifier line name d)
    (h : (p.node src).children[k]? = some m) : ∃ q, p.Child src k q ∧ q.node src = m := by
  rw [same] at h
  cases d with
  | assignment start targets values ranged =>
      obtain ⟨rfl, rfl⟩ : k = 0 ∧ Node.assignment start targets values ranged = m := by
        rcases k with _ | k
        · exact ⟨rfl, Option.some.inj h⟩
        · cases h
      rcases form_of_node_identifier plain same with
        null | ⟨_, _, parameter⟩ | ⟨u, spot, expression, form, -, -, latest, node⟩
      · cases null
      · cases parameter
      · rw [expression]
        exact ⟨spot, .linked form latest, node⟩
  | bare | literal | identifier | memberAccess | invocation | indirection | keyedElement
  | positionalElement | compositeValue | closure | iteration | declaration | other => cases h

/-- The children of the node of a plain expression stand for its parts. -/
theorem exists_child_expression {scopes : Surroundings} {c : Cst}
    (plain : Plain ⟨scopes, .expression c⟩) {k : Nat} {m : Node}
    (h : (node src ⟨scopes, .expression c⟩).children[k]? = some m) :
    ∃ q, Child src ⟨scopes, .expression c⟩ k q ∧ q.node src = m := by
  cases form : c.form with
  | inner e => exact absurd (.inner form) (plain _)
  | name => exact exists_child_name plain (Part.node_form src _ form) h
  | fieldName | literal | kept =>
      rw [node, Part.node_form src _ form] at h
      cases h
  | call callee arguments =>
      rw [node, Part.node_call src _ form] at h
      cases k with
      | zero => exact ⟨_, .callee form, Option.some.inj h⟩
      | succ k =>
          obtain ⟨a, found, node⟩ := exists_of_getElem?_map h
          exact ⟨_, .argument form found, node⟩
  | select operand field =>
      rw [node, Part.node_form src _ form] at h
      cases k with
      | zero => exact ⟨_, .operand form, Option.some.inj h⟩
      | succ k => cases h
  | function parameters statements =>
      rw [node, Part.node_function src _ form] at h
      obtain ⟨s, step, node⟩ :=
        Block.exists_step_of_nodes (b := .ofFunction src parameters statements) h
      exact ⟨_, .function form step, node⟩
  | composite elements =>
      rw [node, Part.node_composite src _ form] at h
      obtain ⟨e, found, node⟩ := exists_of_getElem?_map h
      exact ⟨_, .composite form found, node⟩
  | indirect operand =>
      rw [node, Part.node_form src _ form] at h
      cases k with
      | zero => exact ⟨_, .indirect form, Option.some.inj h⟩
      | succ k => cases h

theorem exists_child_element {scopes : Surroundings} {c : Cst} {k : Nat} {m : Node}
    (h : (node src ⟨scopes, .element c⟩).children[k]? = some m) :
    ∃ q, Child src ⟨scopes, .element c⟩ k q ∧ q.node src = m := by
  by_cases kind : c.info.kind = "keyed_element"
  · match parts : c.parts with
    | [key, value] =>
        rw [node, Part.node_keyed src _ kind parts] at h
        have count : c.parts.length = 2 := by rw [parts]; rfl
        match k with
        | 0 => exact ⟨_, .keyed kind count (by rw [parts]; rfl), Option.some.inj h⟩
        | 1 => exact ⟨_, .keyed kind count (by rw [parts]; rfl), Option.some.inj h⟩
        | k + 2 => cases h
    | [] | [_] | _ :: _ :: _ :: _ =>
        have odd : c.parts.length ≠ 2 := by simp [parts]
        rw [node, Part.node_keptElement src _ kind odd] at h
        cases h
  · rw [node, Part.node_positional src _ kind] at h
    cases k with
    | zero => exact ⟨_, .positional kind, Option.some.inj h⟩
    | succ k => cases h

theorem exists_child_loop {scopes : Surroundings} {c : Cst} {k : Nat} {m : Node}
    (h : (node src ⟨scopes, .loop c⟩).children[k]? = some m) :
    ∃ q, Child src ⟨scopes, .loop c⟩ k q ∧ q.node src = m := by
  rw [node, Part.node_loop, loopSource_eq] at h
  cases k with
  | zero => exact ⟨_, .source, Option.some.inj h⟩
  | succ k =>
      -- the steps of the body follow those of the header in one block
      have count : (Part.blockNodes src (scopes.layers src) [] (c.header src)).length =
          (c.header src).length := Layer.length_run ..
      have inBlock : ((Block.ofLoop src c).nodes src (scopes.layers src))[
          (c.header src).length + k]? = some m := by
        rw [Block.nodes_ofLoop, List.getElem?_append_right (by omega), count,
          Nat.add_sub_cancel_left]
        exact h
      obtain ⟨s, step, node⟩ := Block.exists_step_of_nodes inBlock
      exact ⟨_, .loopBody step, node⟩

/-- The children of the node of a place are the nodes of its parts. -/
theorem exists_child {p : Spot} (plain : p.Plain) {k : Nat} {m : Node}
    (h : (p.node src).children[k]? = some m) : ∃ q, p.Child src k q ∧ q.node src = m := by
  obtain ⟨scopes, part⟩ := p
  cases part with
  | place c =>
      cases c with
      | none => cases h
      | some c => exact absurd .place (plain _)
  | expression c => exact exists_child_expression plain h
  | element c => exact exists_child_element h
  | binding site names values =>
      rw [node, Part.node_binding] at h
      obtain ⟨v, found, node⟩ := exists_of_getElem?_map h
      exact ⟨_, .value found, node⟩
  | range clause =>
      cases right : clause.at? "right" with
      | none =>
          rw [node, Part.node, right] at h
          cases h
      | some e =>
          rw [node, Part.node, right] at h
          cases k with
          | zero =>
              refine ⟨_, .ranged right, ?_⟩
              rw [node, Surroundings.layers_tail]
              exact Option.some.inj h
          | succ k => cases h
  | loop c => exact exists_child_loop h
  | declaration c =>
      rw [node, Part.node_declaration] at h
      obtain ⟨s, step, node⟩ :=
        Block.exists_step_of_nodes (b := .ofFunction src c.parameters (c.statementsAt "body")) h
      exact ⟨_, .functionBody step, node⟩
  | kept c => cases h

/-- The node at a path is the node of the place at the path. -/
theorem exists_at {p : Spot} {path : List Nat} {m : Node} (h : (p.node src).at? path = some m) :
    ∃ q, p.At src path q ∧ q.Plain ∧ q.node src = m := by
  induction path generalizing p with
  | nil =>
      obtain ⟨q, found, plain, same⟩ := exists_opened src p
      exact ⟨q, found, plain, same.symm.trans (Option.some.inj h)⟩
  | cons k path ih =>
      obtain ⟨q, opened, plain, same⟩ := exists_opened src p
      obtain ⟨n, first, rest⟩ := Option.bind_eq_some_iff.mp h
      rw [same] at first
      obtain ⟨r, child, rfl⟩ := exists_child plain first
      obtain ⟨s, found, plain, node⟩ := ih rest
      exact ⟨s, opened.append (.child child found), plain, node⟩

theorem not_leads_of_no_link {d : Node} (h : d = .null ∨ IsParameter d) {line : Int}
    {text : Datum} : ¬ ReflTransGen Node.Leads d (.literal line text) := by
  intro leads
  rcases ReflTransGen.cases_head leads with same | ⟨_, step, -⟩
  · rcases h with rfl | ⟨_, _, rfl⟩ <;> cases same
  · rcases h with rfl | ⟨_, _, rfl⟩ <;> cases step

/-- What a node leads to, its place leads to through latest followed assignments. -/
theorem leadsTo_of_leads {p : Spot} {line : Int} {t : String}
    (h : ReflTransGen Node.Leads (p.node src) (.literal line (.str t))) :
    ∃ l, p.LeadsTo src l ∧ l.text src = t := by
  generalize same : p.node src = n at h
  induction h using ReflTransGen.head_induction_on generalizing p with
  | refl =>
      obtain ⟨q, opened, plain, node⟩ := exists_opened src p
      obtain ⟨c, expression, form, text⟩ := form_of_node_literal plain (node.symm.trans same)
      refine ⟨c, LeadsTo.of_at ?_ opened, (Datum.str.inj text).symm⟩
      rw [expression]
      exact .literal form
  | @head n m leads rest ih =>
      obtain ⟨q, opened, plain, node⟩ := exists_opened src p
      obtain rfl : q.node src = n := node.symm.trans same
      obtain ⟨passes, child | ⟨line', name, identifier⟩⟩ := leads.passesOn
      · obtain ⟨k, found⟩ := List.mem_iff_getElem?.mp child
        obtain ⟨r, child, reached⟩ := exists_child plain found
        obtain ⟨l, led, text⟩ := ih reached
        exact ⟨l, (LeadsTo.child passes child led).of_at opened, text⟩
      · rcases form_of_node_identifier plain identifier with
          none | parameter | ⟨u, spot, expression, form, -, -, latest, reached⟩
        · exact absurd rest (not_leads_of_no_link (.inl none))
        · exact absurd rest (not_leads_of_no_link (.inr parameter))
        · obtain ⟨l, led, text⟩ := ih reached
          have child : q.Child src 0 spot := by
            rw [expression]
            exact .linked form latest
          exact ⟨l, (LeadsTo.child passes child led).of_at opened, text⟩

theorem tells_of_node {p : Spot} {s : String} (h : (p.node src).Tells s) : p.Tells src s := by
  rcases h with ⟨line, t, leads, text⟩ | ⟨line, target, member, access, line', t, leads, text⟩
  · obtain ⟨l, led, rfl⟩ := leadsTo_of_leads leads
    exact ⟨l, text, .inl led⟩
  · obtain ⟨q, opened, plain, node⟩ := exists_opened src p
    obtain ⟨c, operand, field, expression, form, rfl⟩ :=
      form_of_node_memberAccess plain (node.symm.trans access)
    obtain ⟨l, led, rfl⟩ := leadsTo_of_leads leads
    exact ⟨l, text, .inr ⟨q.scopes, c, operand, field, expression ▸ opened, form, led⟩⟩

theorem launches_of_node {cfg : Config} {p : Spot} {s : String} {line : Int}
    (h : (p.node src).Launches cfg s line) : p.Launches src cfg s line := by
  obtain ⟨f, field, argument, reached, launch, first, told⟩ := h
  obtain ⟨path, found⟩ := Node.exists_path reached
  obtain ⟨q, place, plain, node⟩ := exists_at found
  obtain ⟨c, callee, arguments, expression, form, rfl, rfl, rfl⟩ :=
    form_of_node_invocation plain node
  cases arguments with
  | nil => cases first
  | cons a rest =>
      obtain rfl := Except.ok.inj first
      exact ⟨path, q.scopes, c, callee, a, rest, expression ▸ place, form, rfl, launch,
        tells_of_node told⟩

end Spot

end

theorem node_ofFunction (src : Source) (root c : Cst) :
    (Spot.ofFunction src root c).node src = (Part.declaration c).node src
      [Layer.made src (root.packageSteps src)
        (Part.blockNodes src [] [] (root.packageSteps src))] := by
  have count : (Part.blockNodes src [] [] (root.packageSteps src)).length =
      (root.packageSteps src).length := Layer.length_run ..
  have bindings : (Block.ofFile src root).layer src [] (root.packageSteps src).length =
      Layer.made src (root.packageSteps src)
        (Part.blockNodes src [] [] (root.packageSteps src)) := by
    change [] ++ Layer.made src ((root.packageSteps src).take _)
      ((Part.blockNodes src [] [] (root.packageSteps src)).take _) = _
    rw [List.nil_append, List.take_length, ← count, List.take_length]
  exact congrArg (fun layer => (Part.declaration c).node src [layer]) bindings

/-- Every identifier that is linked to an assignment stands at its own place for the latest
assignment of its name that is followed: what assigns the name between that and the identifier, in
the blocks around the identifier, is a compound or mixed assignment or a range clause that declares
nothing. Hence every part of a subtest's name is the text of a literal that the argument of a launch
leads to through such assignments alone, and the launch of the last part stands on the line of the
subtest. -/
theorem identifiers_lead_to_latest_followed_assignment (src : Source) (path : String) (root : Cst)
    {i : Nat} {c : Cst} {declaration : Node} (function : root.functions[i]? = some c)
    (declared : (SourceTree.build src path root).declarations[i]? = some declaration) :
    (∀ places line name start targets values ranged,
      declaration.at? places =
          some (.identifier line name (.assignment start targets values ranged)) →
        ∃ scopes u assignment,
          (Spot.ofFunction src root c).At src places ⟨scopes, .expression u⟩ ∧ u.form = .name ∧
          line = u.line src ∧ name = .str (u.text src) ∧
          Latest src (u.text src) scopes assignment ∧
          assignment.node src = .assignment start targets values ranged) ∧
    ∀ start name body receiver, declaration = .declaration start name body receiver →
      ∀ (cfg : Config) (parent : String) (r : Resolution),
        (Node.resolve cfg parent body).result = .ok r →
        ∀ (j : Nat) (test : String) (line : Int),
          r.names[j]? = some test → r.lines[j]? = some line →
          ∃ before last, test = (before ++ [last]).foldl joinName parent ∧
            (∀ s ∈ before, ∃ line, (Spot.ofFunction src root c).Launches src cfg s line) ∧
            (Spot.ofFunction src root c).Launches src cfg last line := by
  obtain rfl : (Spot.ofFunction src root c).node src = declaration := by
    rw [declarations_build, List.getElem?_map, function] at declared
    exact (node_ofFunction src root c).trans (Option.some.inj declared)
  constructor
  · intro places line name start targets values ranged written
    obtain ⟨q, place, plain, node⟩ := Spot.exists_at written
    rcases Spot.form_of_node_identifier plain node with
      none | ⟨_, _, parameter⟩ | ⟨u, assignment, expression, named⟩
    · cases none
    · cases parameter
    · exact ⟨q.scopes, u, assignment, expression ▸ place, named⟩
  · intro start name body receiver same cfg parent r resolved j test line tested lined
    obtain rfl := Node.eq_of_resolve resolved
    have forest : Nested (body.Launches cfg) parent
        ((Node.bodyFindings cfg parent body).filterMap Finding.name?) :=
      Node.nested_bodyFindings cfg parent body fun s line launched => launched
    have found : ((Node.bodyFindings cfg parent body).filterMap Finding.name?)[j]? =
        some (test, line) := by
      rw [Resolution.ofFindings, List.getElem?_map] at tested lined
      obtain ⟨⟨_, line⟩, found, rfl⟩ := Option.map_eq_some_iff.mp tested
      rw [found] at lined
      obtain rfl := Option.some.inj lined
      exact found
    obtain ⟨before, last, joined, earlier, launched, -⟩ := forest.path_at found
    have inBody {s : String} {line : Int} (h : body.Launches cfg s line) :
        (Spot.ofFunction src root c).Launches src cfg s line := by
      obtain ⟨n, hn, launched⟩ := h
      refine Spot.launches_of_node ?_
      rw [same]
      exact launched.of_holds (.functionBody hn)
    exact ⟨before, last, joined, fun s hs => (earlier s hs).imp fun line h => inBody h,
      inBody launched⟩

/-- The texts of a test that binds a name, appends to it and launches a subtest under it. -/
def appendSource : Source :=
  Source.ofString "TestXn\x60a\x60\x60b\x60+=tRun"

def appendTree : Cst :=
  let name : Cst := .node ⟨"identifier", 5, 6, none, false, false, false⟩ []
  let left : Cst := .node ⟨"expression_list", 5, 6, some "left", false, false, false⟩ [name]
  let right (start stop : Nat) : Cst :=
    .node ⟨"expression_list", start, stop, some "right", false, false, false⟩
      [.node ⟨"raw_string_literal", start, stop, none, false, false, false⟩ []]
  let callee : Cst := .node ⟨"selector_expression", 14, 18, some "function", false, false, false⟩
    [.node ⟨"field_identifier", 15, 18, some "field", false, false, false⟩ []]
  let call : Cst := .node ⟨"call_expression", 14, 18, none, false, false, false⟩
    [callee, .node ⟨"argument_list", 5, 6, some "arguments", false, false, false⟩ [name]]
  let body : Cst := .node ⟨"block", 5, 18, some "body", false, false, false⟩
    [.node ⟨"short_var_declaration", 5, 9, none, false, false, false⟩ [left, right 6 9],
      .node ⟨"assignment_statement", 5, 14, none, false, false, false⟩
        [left, .node ⟨"+=", 12, 14, some "operator", true, false, false⟩ [], right 9 12],
      .node ⟨"expression_statement", 14, 18, none, false, false, false⟩ [call]]
  .node ⟨"source_file", 0, 18, none, false, false, false⟩
    [.node ⟨"function_declaration", 0, 18, none, false, false, false⟩
      [.node ⟨"identifier", 0, 5, some "name", false, false, false⟩ [], body]]

/-- The launch reads the binding before the name was appended to. -/
theorem appended_name_leads_to_its_binding :
    let c : Cst := appendTree.functions.head (by decide +kernel)
    let bound := bindingNode 1 ["n"] [.literal 1 (.str "\x60a\x60")] false
    let start := Spot.ofFunction appendSource appendTree c
    (∃ scopes u assignment, start.At appendSource [2, 1] ⟨scopes, .expression u⟩ ∧ u.form = .name ∧
      (1 : Int) = u.line appendSource ∧ Datum.str "n" = .str (u.text appendSource) ∧
      Latest appendSource (u.text appendSource) scopes assignment ∧
      assignment.node appendSource = bound) ∧
    ∃ before last, "TestX/a" = (before ++ [last]).foldl joinName "TestX" ∧
      (∀ s ∈ before, ∃ line, start.Launches appendSource {} s line) ∧
      start.Launches appendSource {} last 1 := by
  intro c bound start
  let launch : Node := .invocation 1 (.memberAccess 1 .null (.str "Run"))
    (.nodes [.identifier 1 (.str "n") bound])
  let statements : Sequence := .nodes
    [bound, .other 1 (.str "assignment_statement") (.str "n\x60a\x60\x60b\x60+="), launch]
  have function : appendTree.functions[0]? = some c := rfl
  have built : (SourceTree.build appendSource "a_test.go" appendTree).declarations[0]? =
      some (.declaration 1 (.str "TestX") statements .null) := by
    with_unfolding_all rfl
  obtain ⟨identifiers, names⟩ := identifiers_lead_to_latest_followed_assignment appendSource
    "a_test.go" appendTree function built
  have resolved := Node.resolve_tolerant {} "TestX" statements
  have listed : (Node.bodyFindings {} "TestX" statements).filterMap Finding.name? =
      [("TestX/a", 1)] := by
    decide +kernel
  refine ⟨identifiers [2, 1] 1 (.str "n") 1 _ _ false rfl,
    names 1 (.str "TestX") statements .null rfl {} "TestX" _ resolved 0 "TestX/a" 1 ?_ ?_⟩
  · rw [Resolution.ofFindings, listed]
    rfl
  · rw [Resolution.ofFindings, listed]
    rfl

/-- A subtest is listed under the text that its name had before it was appended to. -/
theorem appended_name_is_listed_without_its_end :
    (FileOutcome.ofCst {} .tests appendSource "a_test.go" appendTree).result.toOption.map
      (fun found => found.tests.map TestCase.name) = some ["TestX", "TestX/a"] := by
  decide +kernel

end Go

end TestRoster
