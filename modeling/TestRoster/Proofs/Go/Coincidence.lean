import TestRoster.Go.Scope

/-!
What syntax mentions and what it binds.

A conversion looks up no name that the syntax does not mention. So two scopes that agree on the
names mentioned give the same nodes, and they still agree after the same bindings.
-/
namespace TestRoster.Go

mutual

/-- The names that an expression mentions, in its function literals too. -/
def Expr.mentioned : Expr → List String
  | .name _ text => [text]
  | .call _ callee arguments => callee.mentioned ++ Expr.mentionedAmong arguments
  | .select _ operand _ | .indirect _ operand => operand.mentioned
  | .function _ _ body => Stmt.mentionedAmong body
  | .composite _ elements => Element.mentionedAmong elements
  | .absent | .fieldName .. | .literal .. | .other .. => []

def Expr.mentionedAmong : List Expr → List String
  | [] => []
  | e :: es => e.mentioned ++ Expr.mentionedAmong es

def Element.mentioned : Element → List String
  | .keyed _ key value => key.mentioned ++ value.mentioned
  | .positional _ value => value.mentioned
  | .other .. => []

def Element.mentionedAmong : List Element → List String
  | [] => []
  | e :: es => e.mentioned ++ Element.mentionedAmong es

/-- The names that a statement mentions. To bind a name is not to mention it. -/
def Stmt.mentioned : Stmt → List String
  | .expression e => e.mentioned
  | .bind _ _ values => Expr.mentionedAmong values
  | .loop _ header body => Clause.mentionedAmong header ++ Stmt.mentionedAmong body
  | .other .. => []

def Stmt.mentionedAmong : List Stmt → List String
  | [] => []
  | s :: ss => s.mentioned ++ Stmt.mentionedAmong ss

def Clause.mentionedAmong : List Clause → List String
  | [] => []
  | .range _ _ source _ :: rest => source.mentioned ++ Clause.mentionedAmong rest
  | .before s :: rest => s.mentioned ++ Clause.mentionedAmong rest

end

/-- The names among these that can be bound. -/
def bindable (names : List String) : List String :=
  names.filter fun name => ¬ (name = "" ∨ name = "_")

/-- The names that a statement binds for what comes after it. -/
def Stmt.bound : Stmt → List String
  | .bind _ names _ => bindable names
  | .expression _ | .loop .. | .other .. => []

theorem Stmt.mentionedAmong_eq_flatMap (ss : List Stmt) :
    Stmt.mentionedAmong ss = ss.flatMap Stmt.mentioned := by
  induction ss with
  | nil => rfl
  | cons s rest ih => rw [Stmt.mentionedAmong, ih, List.flatMap_cons]

theorem mem_bindable {name : String} {names : List String} :
    name ∈ bindable names ↔ name ∈ names ∧ ¬ (name = "" ∨ name = "_") := by
  rw [bindable, List.mem_filter, decide_eq_true_iff]

namespace Scope

theorem lookup_bind (declaration : Node) (scope : Scope) (bound name : String) :
    (scope.bind declaration bound).lookup name =
      if name ∈ bindable [bound] then some declaration else scope.lookup name := by
  unfold Scope.bind
  by_cases blank : bound = "" ∨ bound = "_"
  · have unbound : name ∉ bindable [bound] := fun h => by
      obtain ⟨member, named⟩ := mem_bindable.mp h
      exact named (List.mem_singleton.mp member ▸ blank)
    rw [if_pos blank, if_neg unbound]
  · rw [if_neg blank]
    by_cases same : name = bound
    · rw [if_pos (mem_bindable.mpr ⟨List.mem_singleton.mpr same, same ▸ blank⟩)]
      cases scope <;> simp [lookup, same]
    · have other : (name == bound) = false := beq_false_of_ne same
      rw [if_neg fun h => same (List.mem_singleton.mp (mem_bindable.mp h).1)]
      cases scope <;> simp [lookup, List.findSome?_cons, List.lookup_cons, other]

theorem lookup_bindAll (names : List String) (declaration : Node) (scope : Scope)
    (name : String) :
    (scope.bindAll names declaration).lookup name =
      if name ∈ bindable names then some declaration else scope.lookup name := by
  induction names generalizing scope with
  | nil => rfl
  | cons first rest ih =>
      have either : name ∈ bindable (first :: rest) ↔
          name ∈ bindable rest ∨ name ∈ bindable [first] := by
        simp only [mem_bindable, List.mem_cons, List.not_mem_nil, or_false]
        rw [or_and_right, or_comm]
      change ((scope.bind declaration first).bindAll rest declaration).lookup name = _
      rw [ih, lookup_bind]
      by_cases later : name ∈ bindable rest
      · rw [if_pos later, if_pos (either.mpr (.inl later))]
      · rw [if_neg later]
        by_cases now : name ∈ bindable [first]
        · rw [if_pos now, if_pos (either.mpr (.inr now))]
        · rw [if_neg now, if_neg fun h => (either.mp h).elim later now]

/-- That two scopes have the same declarations for these names. -/
def Agree (names : List String) (scope scope' : Scope) : Prop :=
  ∀ name ∈ names, scope.lookup name = scope'.lookup name

variable {names : List String} {scope scope' : Scope}

namespace Agree

variable (h : Agree names scope scope')

include h

theorem mono {fewer : List String} (hs : fewer ⊆ names) : Agree fewer scope scope' :=
  fun name member => h name (hs member)

theorem push : Agree names ([] :: scope) ([] :: scope') :=
  h

theorem bindAll (declaration : Node) (bound : List String) :
    Agree names (scope.bindAll bound declaration) (scope'.bindAll bound declaration) := by
  intro name member
  rw [lookup_bindAll, lookup_bindAll, h name member]

omit h in
theorem bindParameters (h : Agree names scope scope') (parameters : List Parameter) :
    Agree names (Scope.bindParameters parameters scope)
      (Scope.bindParameters parameters scope') := by
  induction parameters generalizing scope scope' with
  | nil => exact h
  | cons p rest ih =>
      refine ih fun name member => ?_
      rw [lookup_bind, lookup_bind, h name member]

end Agree

end Scope

/-- A statement binds its names to its own node, and nothing else. -/
theorem Stmt.lookup_node (s : Stmt) (scope : Scope) (name : String) :
    (s.node scope).2.lookup name =
      if name ∈ s.bound then some (s.node scope).1 else scope.lookup name := by
  cases s with
  | expression | loop | other => rw [Stmt.node]; rfl
  | bind line names values =>
      rw [Stmt.node]
      exact Scope.lookup_bindAll ..

/-- After the same statement, two scopes agree on what it binds as well. -/
theorem Scope.Agree.after {names : List String} {scope scope' : Scope}
    (h : Scope.Agree names scope scope') {s : Stmt}
    (same : (s.node scope).1 = (s.node scope').1) :
    Scope.Agree (s.bound ++ names) (s.node scope).2 (s.node scope').2 := by
  intro name member
  rw [s.lookup_node, s.lookup_node, same]
  by_cases bound : name ∈ s.bound
  · rw [if_pos bound, if_pos bound]
  · rw [if_neg bound, if_neg bound]
    exact h name ((List.mem_append.mp member).resolve_left bound)

mutual

theorem node_eq_of_agree {names : List String} {scope scope' : Scope}
    (h : Scope.Agree names scope scope') (e : Expr) (he : e.mentioned ⊆ names) :
    e.node scope = e.node scope' := by
  cases e with
  | absent | fieldName | literal | other => rfl
  | name line text =>
      have found : text ∈ names := he (List.mem_singleton_self text)
      rw [Expr.node, Expr.node, h text found]
  | call line callee arguments =>
      obtain ⟨hc, ha⟩ := List.append_subset.mp he
      rw [Expr.node, Expr.node, node_eq_of_agree h callee hc, nodes_eq_of_agree h arguments ha]
  | select line operand member =>
      rw [Expr.node, Expr.node, node_eq_of_agree h operand he]
  | function line parameters body =>
      rw [Expr.node, Expr.node, block_eq_of_agree (h.push.bindParameters parameters) body he]
  | composite line elements =>
      rw [Expr.node, Expr.node, elements_eq_of_agree h elements he]
  | indirect line operand =>
      rw [Expr.node, Expr.node, node_eq_of_agree h operand he]

theorem nodes_eq_of_agree {names : List String} {scope scope' : Scope}
    (h : Scope.Agree names scope scope') (es : List Expr)
    (hes : Expr.mentionedAmong es ⊆ names) : Expr.nodes scope es = Expr.nodes scope' es := by
  cases es with
  | nil => rfl
  | cons e rest =>
      obtain ⟨first, later⟩ := List.append_subset.mp hes
      rw [Expr.nodes, Expr.nodes, node_eq_of_agree h e first, nodes_eq_of_agree h rest later]

theorem element_eq_of_agree {names : List String} {scope scope' : Scope}
    (h : Scope.Agree names scope scope') (e : Element) (he : e.mentioned ⊆ names) :
    e.node scope = e.node scope' := by
  cases e with
  | keyed line key value =>
      obtain ⟨hk, hv⟩ := List.append_subset.mp he
      rw [Element.node, Element.node, node_eq_of_agree h key hk, node_eq_of_agree h value hv]
  | positional line value =>
      rw [Element.node, Element.node, node_eq_of_agree h value he]
  | other => rfl

theorem elements_eq_of_agree {names : List String} {scope scope' : Scope}
    (h : Scope.Agree names scope scope') (es : List Element)
    (hes : Element.mentionedAmong es ⊆ names) :
    Element.nodes scope es = Element.nodes scope' es := by
  cases es with
  | nil => rfl
  | cons e rest =>
      obtain ⟨first, later⟩ := List.append_subset.mp hes
      rw [Element.nodes, Element.nodes, element_eq_of_agree h e first,
        elements_eq_of_agree h rest later]

theorem statement_eq_of_agree {names : List String} {scope scope' : Scope}
    (h : Scope.Agree names scope scope') (s : Stmt) (hs : s.mentioned ⊆ names) :
    (s.node scope).1 = (s.node scope').1 := by
  cases s with
  | expression e =>
      rw [Stmt.node, Stmt.node]
      exact node_eq_of_agree h e hs
  | bind line bound values =>
      simp only [Stmt.node, nodes_eq_of_agree h values hs]
  | loop line header body =>
      obtain ⟨hh, hb⟩ := List.append_subset.mp hs
      obtain ⟨source, inner⟩ := header_eq_of_agree h h.push .null header hh
      simp only [Stmt.node, source, block_eq_of_agree inner body hb]
  | other => rfl

theorem block_eq_of_agree {names : List String} {scope scope' : Scope}
    (h : Scope.Agree names scope scope') (ss : List Stmt)
    (hss : Stmt.mentionedAmong ss ⊆ names) : Stmt.nodes scope ss = Stmt.nodes scope' ss := by
  cases ss with
  | nil => rfl
  | cons s rest =>
      obtain ⟨first, later⟩ := List.append_subset.mp hss
      have same := statement_eq_of_agree h s first
      have after := (h.after same).mono (List.subset_append_right ..)
      have following := block_eq_of_agree after rest later
      simp only [Stmt.nodes, same, following]

/-- What a loop ranges over is the same, and the scopes of its body agree. -/
theorem header_eq_of_agree {names : List String} {outside outside' scope scope' : Scope}
    (ho : Scope.Agree names outside outside') (h : Scope.Agree names scope scope')
    (source : Node) (clauses : List Clause) (hc : Clause.mentionedAmong clauses ⊆ names) :
    (Clause.header outside scope source clauses).1 =
        (Clause.header outside' scope' source clauses).1 ∧
      Scope.Agree names (Clause.header outside scope source clauses).2
        (Clause.header outside' scope' source clauses).2 := by
  match clauses with
  | [] => exact ⟨rfl, h⟩
  | .range line bound e declares :: rest =>
      -- a source is looked up outside the loop, whatever the clauses before it bind
      obtain ⟨first, later⟩ := List.append_subset.mp hc
      have value := node_eq_of_agree ho e first
      simp only [Clause.header, value]
      refine header_eq_of_agree ho ?_ _ rest later
      split
      · exact h.bindAll _ bound
      · exact h
  | .before s :: rest =>
      obtain ⟨first, later⟩ := List.append_subset.mp hc
      have after := h.after (statement_eq_of_agree h s first)
      rw [Clause.header, Clause.header]
      exact header_eq_of_agree ho (after.mono (List.subset_append_right ..)) source rest later

end

end TestRoster.Go
