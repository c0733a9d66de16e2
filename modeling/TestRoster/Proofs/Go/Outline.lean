import TestRoster.Go.Reading

/-!
What a concrete tree is made of, seen from above.

An expression has a form, which names the parts that are converted with it. A block is a list of
steps in the order in which they are converted: one for each node that a statement gives. Nothing
here depends on scopes.
-/
namespace TestRoster.Go

namespace Cst

variable (src : Source)

def text (c : Cst) : String :=
  src.text c.info.start c.info.stop

def line (c : Cst) : Nat :=
  src.line c.info.start

def parts (c : Cst) : List Cst :=
  c.children.filter (·.info.isNamed)

def at? (c : Cst) (field : String) : Option Cst :=
  c.children.find? (·.info.field == some field)

def allAt (c : Cst) (field : String) : List Cst :=
  c.children.filter (·.info.field == some field)

def partsAt (c : Cst) (field : String) : List Cst :=
  ((c.at? field).map parts).getD []

/-- The statements of the block under a field name, lists of statements opened. -/
def statementsAt (c : Cst) (field : String) : List Cst :=
  (c.partsAt field).flatMap fun s => if s.info.kind == "statement_list" then s.parts else [s]

end Cst

/-- What an expression is converted to, and from which parts. -/
inductive Form where
  | inner (c : Cst)
  | name
  | fieldName
  | literal
  | call (callee : Option Cst) (arguments : List Cst)
  | select (operand field : Option Cst)
  | function (parameters statements : List Cst)
  | composite (elements : List Cst)
  | indirect (operand : Cst)
  | kept

def Cst.form (c : Cst) : Form :=
  if c.info.kind == "parenthesized_expression" || c.info.kind == "literal_element" then
    match c.parts with
    | inner :: _ => .inner inner
    | [] => .kept
  else if c.info.kind == "identifier" then .name
  else if c.info.kind == "field_identifier" then .fieldName
  else if Reading.literalKinds.contains c.info.kind then .literal
  else if c.info.kind == "call_expression" then .call (c.at? "function") (c.partsAt "arguments")
  else if c.info.kind == "selector_expression" then .select (c.at? "operand") (c.at? "field")
  else if c.info.kind == "func_literal" then
    .function (c.partsAt "parameters") (c.statementsAt "body")
  else if c.info.kind == "composite_literal" then .composite (c.partsAt "body")
  else if c.info.kind == "literal_value" then .composite c.parts
  else if c.info.kind == "unary_expression" then
    match c.at? "operator", c.at? "operand" with
    | some operator, some operand =>
        if operator.info.kind == "&" || operator.info.kind == "*" then .indirect operand else .kept
    | _, _ => .kept
  else .kept

/-- Something that is converted to one node. -/
inductive Part where
  /-- A place for an expression. -/
  | place (c : Option Cst)
  | expression (c : Cst)
  | element (c : Cst)
  /-- A binding of names that is no range clause. -/
  | binding (site : Cst) (names : List String) (values : List Cst)
  | range (clause : Cst)
  | loop (c : Cst)
  /-- A function or method declaration. -/
  | declaration (c : Cst)
  | kept (c : Cst)

def Part.isStep : Part → Bool
  | .expression _ | .binding .. | .loop _ | .kept _ => true
  | _ => false

namespace Cst

mutual

/-- The specifications among the parts, lists of them opened. -/
def specs : Cst → List Cst
  | .node _ cs => specsAmong cs

def specsAmong : List Cst → List Cst
  | [] => []
  | c :: cs =>
      (if !c.info.isNamed then []
      else if c.info.kind == "var_spec" || c.info.kind == "const_spec" then [c]
      else if c.info.kind == "var_spec_list" || c.info.kind == "const_spec_list" then specs c
      else []) ++ specsAmong cs

end

def specStep (src : Source) (c : Cst) : Part :=
  .binding c ((c.allAt "name").map (text src)) (c.partsAt "value")

/-- Whether an assignment is plain and all of its left side are names. -/
def rebinds (c : Cst) : Bool :=
  (c.at? "operator").any (·.info.kind == "=") &&
    (c.partsAt "left").all (·.info.kind == "identifier")

def namesAt (src : Source) (c : Cst) : List String :=
  (c.partsAt "left").map (text src)

def steps (src : Source) (c : Cst) : List Part :=
  if c.info.kind == "expression_statement" then c.parts.map .expression
  else if c.info.kind == "for_statement" then [.loop c]
  else if c.info.kind == "short_var_declaration" then
    [.binding c (c.namesAt src) (c.partsAt "right")]
  else if c.info.kind == "var_declaration" || c.info.kind == "const_declaration" then
    c.specs.map (specStep src)
  else if c.info.kind == "assignment_statement" then
    if c.rebinds then [.binding c (c.namesAt src) (c.partsAt "right")] else [.kept c]
  else [.kept c]

def blockSteps (src : Source) (statements : List Cst) : List Part :=
  statements.flatMap (steps src)

/-- Whether a range clause binds its names. -/
def declares (c : Cst) : Bool :=
  c.children.any fun t => t.info.anonymous && t.info.kind == ":="

def header (src : Source) (c : Cst) : List Part :=
  c.parts.flatMap fun k =>
    if k.info.kind == "range_clause" then [.range k]
    else if k.info.kind == "for_clause" then ((k.at? "initializer").map (steps src)).getD []
    else []

def body (src : Source) (c : Cst) : List Part :=
  blockSteps src (c.statementsAt "body")

def parameters (c : Cst) : List Cst :=
  (if c.info.kind == "method_declaration" then c.partsAt "receiver" else []) ++
    c.partsAt "parameters"

def receiver (src : Source) (c : Cst) : Option String :=
  if c.info.kind == "method_declaration" then
    ((c.partsAt "receiver").findSome? (·.at? "type")).map fun t =>
      Reading.receiverName (t.text src)
  else none

/-- The steps that bind the package-level names of a file. -/
def packageSteps (src : Source) (root : Cst) : List Part :=
  root.parts.flatMap fun c =>
    if c.info.kind == "var_declaration" || c.info.kind == "const_declaration" then
      c.specs.map (specStep src)
    else []

def functions (root : Cst) : List Cst :=
  root.parts.filter fun c =>
    c.info.kind == "function_declaration" || c.info.kind == "method_declaration"

theorem sizeOf_children {c p : Cst} (h : p ∈ c.children) : sizeOf p < sizeOf c := by
  cases c with
  | node i cs =>
      have smaller : sizeOf p < sizeOf cs := List.sizeOf_lt_of_mem h
      simp only [node.sizeOf_spec]
      omega

theorem sizeOf_parts {c p : Cst} (h : p ∈ c.parts) : sizeOf p < sizeOf c :=
  sizeOf_children (List.mem_filter.mp h).1

theorem sizeOf_at? {c p : Cst} {field : String} (h : c.at? field = some p) :
    sizeOf p < sizeOf c :=
  sizeOf_children (List.mem_of_find?_eq_some h)

theorem sizeOf_partsAt {c p : Cst} {field : String} (h : p ∈ c.partsAt field) :
    sizeOf p < sizeOf c := by
  rw [partsAt] at h
  cases hf : c.at? field with
  | none => simp [hf] at h
  | some place =>
      rw [hf] at h
      exact Nat.lt_trans (sizeOf_parts h) (sizeOf_at? hf)

theorem sizeOf_statementsAt {c p : Cst} {field : String} (h : p ∈ c.statementsAt field) :
    sizeOf p < sizeOf c := by
  obtain ⟨s, hs, h⟩ := List.mem_flatMap.mp h
  split at h
  · exact Nat.lt_trans (sizeOf_parts h) (sizeOf_partsAt hs)
  · obtain rfl := List.mem_singleton.mp h
    exact sizeOf_partsAt hs

end Cst

def Form.parts : Form → List Cst
  | .inner e | .indirect e => [e]
  | .call callee arguments => callee.toList ++ arguments
  | .select operand _ => operand.toList
  | .function _ statements => statements
  | .composite elements => elements
  | .name | .fieldName | .literal | .kept => []

def Form.Below (c : Cst) (f : Form) : Prop :=
  ∀ p ∈ f.parts, sizeOf p < sizeOf c

theorem Form.Below.ite {c : Cst} {q : Prop} [Decidable q] {f g : Form} (hf : f.Below c)
    (hg : g.Below c) : (if q then f else g).Below c := by
  split
  · exact hf
  · exact hg

namespace Cst

theorem below_form (c : Cst) : c.form.Below c := by
  have none {f : Form} (h : f.parts = []) : f.Below c := by
    intro p hp
    rw [h] at hp
    cases hp
  refine .ite ?inner (.ite (none rfl) (.ite (none rfl) (.ite (none rfl)
    (.ite ?call (.ite ?select (.ite ?function (.ite ?composite
    (.ite ?literalValue (.ite ?unary (none rfl))))))))))
  case inner =>
      cases hp : c.parts with
      | nil => exact none rfl
      | cons e rest =>
          intro p h
          obtain rfl := List.mem_singleton.mp h
          exact sizeOf_parts (by simp [hp])
  case call =>
      intro p h
      rcases List.mem_append.mp h with h | h
      · exact sizeOf_at? (Option.mem_toList.mp h)
      · exact sizeOf_partsAt h
  case select => exact fun p h => sizeOf_at? (Option.mem_toList.mp h)
  case function => exact fun p h => sizeOf_statementsAt h
  case composite => exact fun p h => sizeOf_partsAt h
  case literalValue => exact fun p h => sizeOf_parts h
  case unary =>
      cases c.at? "operator" with
      | none => exact none rfl
      | some operator =>
          cases ho : c.at? "operand" with
          | none => exact none rfl
          | some operand =>
              refine .ite (fun p h => ?_) (none rfl)
              obtain rfl := List.mem_singleton.mp h
              exact sizeOf_at? ho

mutual

theorem sizeOf_specs {c s : Cst} (h : s ∈ c.specs) : sizeOf s < sizeOf c := by
  cases c with
  | node i cs =>
      have smaller := sizeOf_specsAmong h
      simp only [node.sizeOf_spec]
      omega

theorem sizeOf_specsAmong {cs : List Cst} {s : Cst} (h : s ∈ specsAmong cs) :
    sizeOf s < sizeOf cs := by
  cases cs with
  | nil => cases h
  | cons c rest =>
      simp only [List.cons.sizeOf_spec]
      rcases List.mem_append.mp h with h | h
      · split at h
        · cases h
        · split at h
          · obtain rfl := List.mem_singleton.mp h
            omega
          · split at h
            · have smaller := sizeOf_specs h
              omega
            · cases h
      · have smaller := sizeOf_specsAmong h
        omega

end

end Cst

def Part.Below (k : Nat) : Part → Prop
  | .place c => ∀ e ∈ c, sizeOf e < k
  | .expression c | .element c | .range c | .loop c | .declaration c => sizeOf c < k
  | .binding _ _ values => ∀ v ∈ values, sizeOf v < k
  | .kept _ => True

namespace Cst

variable {src : Source} {k : Nat}

theorem below_specStep {c s : Cst} (h : s ∈ c.specs) (hc : sizeOf c < k) :
    (s.specStep src).Below k := by
  intro v hv
  have value := sizeOf_partsAt hv
  have spec := sizeOf_specs h
  omega

theorem below_steps {c : Cst} {s : Part} (h : s ∈ c.steps src) (hc : sizeOf c < k) :
    s.Below k := by
  have right : ∀ v ∈ c.partsAt "right", sizeOf v < k := fun v hv =>
    Nat.lt_trans (sizeOf_partsAt hv) hc
  unfold steps at h
  split at h
  · obtain ⟨e, he, rfl⟩ := List.mem_map.mp h
    exact Nat.lt_trans (sizeOf_parts he) hc
  · split at h
    · obtain rfl := List.mem_singleton.mp h
      exact hc
    · split at h
      · obtain rfl := List.mem_singleton.mp h
        exact right
      · split at h
        · obtain ⟨spec, hs, rfl⟩ := List.mem_map.mp h
          exact below_specStep hs hc
        · split at h
          · split at h
            · obtain rfl := List.mem_singleton.mp h
              exact right
            · obtain rfl := List.mem_singleton.mp h
              trivial
          · obtain rfl := List.mem_singleton.mp h
            trivial

theorem below_blockSteps {c : Cst} {field : String} {s : Part}
    (h : s ∈ blockSteps src (c.statementsAt field)) (hc : sizeOf c ≤ k) : s.Below k := by
  obtain ⟨statement, hs, h⟩ := List.mem_flatMap.mp h
  exact below_steps h (Nat.lt_of_lt_of_le (sizeOf_statementsAt hs) hc)

theorem below_header {c : Cst} {s : Part} (h : s ∈ c.header src) (hc : sizeOf c ≤ k) :
    s.Below k := by
  obtain ⟨clause, hp, h⟩ := List.mem_flatMap.mp h
  have smaller : sizeOf clause < k := Nat.lt_of_lt_of_le (sizeOf_parts hp) hc
  split at h
  · obtain rfl := List.mem_singleton.mp h
    exact smaller
  · split at h
    · cases hi : clause.at? "initializer" with
      | none => simp [hi] at h
      | some statement =>
          rw [hi] at h
          exact below_steps h (Nat.lt_trans (sizeOf_at? hi) smaller)
    · cases h

end Cst

end TestRoster.Go
