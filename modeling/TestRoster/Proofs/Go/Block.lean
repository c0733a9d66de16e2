import TestRoster.Go.SourceTree
import TestRoster.Proofs.Go.Conversion

/-!
The assignments behind an identifier.

A place in a source stands in blocks: the file, its function, then the loops and closures around it,
each at one of its steps. What a name is linked to there is the latest step before the place that
assigns the name and is followed. Compound and mixed assignments are not followed, nor are range
clauses that declare nothing; loops and function literals that ended before the place are not looked
into.
-/
namespace TestRoster.Go

/-- That a part can be a step, and is kept as it is written or left unbound only if it is of such a
kind. -/
def Part.Regular : Part → Prop
  | .kept c => c.info.kind = "assignment_statement" → c.rebinds = false
  | .range clause => clause.info.kind = "range_clause"
  | .expression _ | .binding .. | .loop _ => True
  | .place _ | .element _ | .declaration _ => False

namespace Cst

variable {src : Source}

theorem regular_of_mem_steps {c : Cst} {s : Part} (h : s ∈ c.steps src) : s.Regular := by
  unfold steps at h
  split at h
  · obtain ⟨e, -, rfl⟩ := List.mem_map.mp h
    trivial
  split at h
  · obtain rfl := List.mem_singleton.mp h
    trivial
  split at h
  · obtain rfl := List.mem_singleton.mp h
    trivial
  split at h
  · obtain ⟨spec, -, rfl⟩ := List.mem_map.mp h
    trivial
  split at h
  · split at h
    · obtain rfl := List.mem_singleton.mp h
      trivial
    · rename_i kept
      obtain rfl := List.mem_singleton.mp h
      exact fun _ => Bool.eq_false_iff.mpr kept
  · rename_i other
    obtain rfl := List.mem_singleton.mp h
    exact fun kind => absurd (beq_iff_eq.mpr kind) other

theorem regular_of_mem_blockSteps {statements : List Cst} {s : Part}
    (h : s ∈ blockSteps src statements) : s.Regular := by
  obtain ⟨c, -, h⟩ := List.mem_flatMap.mp h
  exact regular_of_mem_steps h

theorem regular_of_mem_header {c : Cst} {s : Part} (h : s ∈ c.header src) : s.Regular := by
  obtain ⟨clause, -, h⟩ := List.mem_flatMap.mp h
  split at h
  · rename_i kind
    obtain rfl := List.mem_singleton.mp h
    exact beq_iff_eq.mp kind
  split at h
  · cases initial : clause.at? "initializer" with
    | none => simp [initial] at h
    | some statement =>
        rw [initial] at h
        exact regular_of_mem_steps h
  · cases h

theorem regular_of_mem_packageSteps {root : Cst} {s : Part} (h : s ∈ root.packageSteps src) :
    s.Regular := by
  obtain ⟨c, -, h⟩ := List.mem_flatMap.mp h
  split at h
  · obtain ⟨spec, -, rfl⟩ := List.mem_map.mp h
    trivial
  · cases h

end Cst

/-- The steps of one scope, behind its parameters. -/
structure Block where
  parameters : List Cst
  steps : List Part
  regular : ∀ s ∈ steps, s.Regular

/-- The blocks around a place, the innermost first, each with the number of its steps that are done
there. -/
abbrev Surroundings := List (Block × Nat)

/-- A part where it stands. -/
structure Spot where
  scopes : Surroundings
  part : Part

namespace Block

variable (src : Source)

def ofFile (root : Cst) : Block where
  parameters := []
  steps := root.packageSteps src
  regular _ := Cst.regular_of_mem_packageSteps

def ofFunction (parameters statements : List Cst) : Block where
  parameters := parameters
  steps := Cst.blockSteps src statements
  regular _ := Cst.regular_of_mem_blockSteps

def ofLoop (c : Cst) : Block where
  parameters := []
  steps := c.header src ++ c.body src
  regular _ h := (List.mem_append.mp h).elim Cst.regular_of_mem_header Cst.regular_of_mem_blockSteps

def parameterNames (b : Block) : List String :=
  b.parameters.flatMap fun p => (p.allAt "name").map (Cst.text src)

/-- The nodes of the steps, among the layers around the block. -/
def nodes (outer : List Layer) (b : Block) : List Node :=
  Part.blockNodes src outer (.ofParameters src b.parameters) b.steps

def layer (outer : List Layer) (b : Block) (i : Nat) : Layer :=
  .ofParameters src b.parameters ++ .made src (b.steps.take i) ((b.nodes src outer).take i)

end Block

def Surroundings.layers (src : Source) : Surroundings → List Layer
  | [] => []
  | (b, i) :: outer => b.layer src (layers src outer) i :: layers src outer

/-- What the builder makes of a part where it stands. -/
def Spot.node (src : Source) (p : Spot) : Node :=
  p.part.node src (p.scopes.layers src)

namespace Part

def assignedNames (src : Source) : Part → List String
  | .binding _ names _ => names
  | .range clause => clause.namesAt src
  | .kept c =>
      if c.info.kind == "assignment_statement" then
        ((c.partsAt "left").filter (·.info.kind == "identifier")).map (Cst.text src)
      else []
  | _ => []

/-- That a step is an assignment of a kind that binds nothing. -/
def Unfollowed : Part → Prop
  | .kept c => c.info.kind = "assignment_statement" ∧ c.rebinds = false
  | .range clause => clause.info.kind = "range_clause" ∧ clause.declares = false
  | _ => False

end Part

/-- The step that is the latest assignment of a name to be followed before a place: whatever assigns
the name behind it, in its block or in those inside it, is of a kind that is not followed. -/
inductive Latest (src : Source) (name : String) : Surroundings → Spot → Prop where
  | here {b : Block} {i j s outer} (before : j < i) (step : b.steps[j]? = some s)
      (assigns : name ∈ s.assignedNames src) (followed : ¬ s.Unfollowed)
      (silent : ∀ k s', j < k → k < i → b.steps[k]? = some s' → name ∈ s'.assignedNames src →
        s'.Unfollowed) :
      Latest src name ((b, i) :: outer) ⟨(b, j) :: outer, s⟩
  | outwards {b : Block} {i outer spot} (other : name ∉ b.parameterNames src)
      (silent : ∀ k s', k < i → b.steps[k]? = some s' → name ∈ s'.assignedNames src →
        s'.Unfollowed)
      (h : Latest src name outer spot) : Latest src name ((b, i) :: outer) spot

def IsParameter (d : Node) : Prop :=
  ∃ line text, d = .other line (.str "parameter") text

theorem Layer.mem_ofNames {names : List String} {name : String} {d d' : Node} :
    (name, d) ∈ ofNames names d' ↔ name ∈ names ∧ (name ≠ "" ∧ name ≠ "_") ∧ d = d' := by
  simp only [ofNames, List.mem_map, List.mem_filter, decide_eq_true_eq, Prod.mk.injEq]
  constructor
  · rintro ⟨_, ⟨member, named⟩, rfl, rfl⟩
    exact ⟨member, named, rfl⟩
  · rintro ⟨member, named, rfl⟩
    exact ⟨name, ⟨member, named⟩, rfl, rfl⟩

/-- What a step binds: the names that it assigns, unless it is not followed. -/
theorem Part.Regular.mem_made {src : Source} {s : Part} (h : s.Regular) {n d : Node}
    {name : String} :
    (name, d) ∈ s.made src n ↔
      (name ∈ s.assignedNames src ∧ ¬ s.Unfollowed) ∧ (name ≠ "" ∧ name ≠ "_") ∧ d = n := by
  cases s with
  | binding site names values => simp [made, assignedNames, Unfollowed, Layer.mem_ofNames]
  | range clause =>
      have kind : clause.info.kind = "range_clause" := h
      cases declares : clause.declares <;>
        simp [made, assignedNames, Unfollowed, Layer.mem_ofNames, declares, kind]
  | kept c =>
      by_cases assigns : c.info.kind = "assignment_statement"
      · simp [made, Unfollowed, assigns, h assigns]
      · simp [made, assignedNames, assigns]
  | expression | loop => simp [made, assignedNames]
  | place | element | declaration => exact h.elim

namespace Block

variable {src : Source} {outer : List Layer} {b : Block}

theorem regular_of_getElem? {i : Nat} {s : Part} (h : b.steps[i]? = some s) : s.Regular :=
  b.regular s (List.mem_of_getElem? h)

theorem getElem?_nodes {i : Nat} {s : Part} (h : b.steps[i]? = some s) :
    (b.nodes src outer)[i]? = some (s.node src (b.layer src outer i :: outer)) := by
  obtain ⟨count, each⟩ := (Part.eq_blockNodes_iff src outer (.ofParameters src b.parameters)
    b.steps _).mp rfl
  have bound : i < (b.nodes src outer).length :=
    Nat.lt_of_lt_of_eq (List.getElem?_eq_some_iff.mp h).1 count.symm
  have found := List.getElem?_eq_getElem bound
  rw [found, each i s _ h found]
  rfl

theorem exists_step_of_nodes {i : Nat} {n : Node} (h : (b.nodes src outer)[i]? = some n) :
    ∃ s, b.steps[i]? = some s ∧ s.node src (b.layer src outer i :: outer) = n := by
  have bound : i < b.steps.length := by
    have count : (b.nodes src outer).length = b.steps.length := Layer.length_run ..
    exact Nat.lt_of_lt_of_eq (List.getElem?_eq_some_iff.mp h).1 count
  have step := List.getElem?_eq_getElem bound
  refine ⟨_, step, ?_⟩
  rw [getElem?_nodes step] at h
  exact Option.some.inj h

/-- What is bound behind a step is what was bound before it, then what the step binds. -/
theorem layer_succ {i : Nat} {s : Part} (h : b.steps[i]? = some s) :
    b.layer src outer (i + 1) =
      b.layer src outer i ++ s.made src (s.node src (b.layer src outer i :: outer)) := by
  have count : (b.nodes src outer).length = b.steps.length := Layer.length_run ..
  have before : (b.steps.take i).length = ((b.nodes src outer).take i).length := by
    rw [List.length_take, List.length_take, count]
  rw [layer, List.take_add_one, List.take_add_one, h, getElem?_nodes h, Option.toList_some,
    Option.toList_some, Layer.made, List.zip_append before, List.flatMap_append,
    ← List.append_assoc]
  exact congrArg (_ ++ ·) (List.append_nil _)

theorem layer_succ_of_none {i : Nat} (h : b.steps[i]? = none) :
    b.layer src outer (i + 1) = b.layer src outer i := by
  have count : (b.nodes src outer).length = b.steps.length := Layer.length_run ..
  have behind : b.steps.length ≤ i := List.getElem?_eq_none_iff.mp h
  rw [layer, layer, List.take_of_length_le (by omega), List.take_of_length_le (by omega),
    List.take_of_length_le (by omega), List.take_of_length_le (by omega)]

theorem mem_ofParameters {parameters : List Cst} {name : String} {d : Node}
    (h : (name, d) ∈ Layer.ofParameters src parameters) :
    (name ≠ "" ∧ name ≠ "_") ∧ IsParameter d := by
  obtain ⟨p, -, h⟩ := List.mem_flatMap.mp h
  obtain ⟨n, -, h⟩ := List.mem_flatMap.mp h
  obtain ⟨-, named, rfl⟩ := Layer.mem_ofNames.mp h
  exact ⟨named, _, _, rfl⟩

/-- The blank name and the empty one are not bound. -/
theorem named_of_mem_layer {i : Nat} {name : String} {d : Node}
    (h : (name, d) ∈ b.layer src outer i) : name ≠ "" ∧ name ≠ "_" := by
  rcases List.mem_append.mp h with parameter | made
  · exact (mem_ofParameters parameter).1
  · obtain ⟨⟨s, n⟩, member, made⟩ := List.mem_flatMap.mp made
    have step := List.mem_of_mem_take (List.of_mem_zip member).1
    exact ((b.regular s step).mem_made.mp made).2.1

/-- A step that does not bind a name assigns it in a way that is not followed, if at all. -/
theorem unfollowed_of_unbound {s : Part} (regular : s.Regular) {n : Node} {name : String}
    (named : name ≠ "" ∧ name ≠ "_") (unbound : ¬ (s.made src n).Binds name)
    (assigns : name ∈ s.assignedNames src) : s.Unfollowed := by
  refine Classical.byContradiction fun followed => ?_
  exact unbound ⟨n, regular.mem_made.mpr ⟨⟨assigns, followed⟩, named, rfl⟩⟩

/-- A binding that a step does not make was there before the step. -/
theorem eq_append_of_not_made {x : String × Node} {before made bs cs : Layer}
    (same : before ++ made = bs ++ x :: cs) (other : x ∉ made) :
    ∃ cs', before = bs ++ x :: cs' ∧ cs = cs' ++ made := by
  rcases List.append_eq_append_iff.mp same with ⟨as, -, later⟩ | ⟨as, earlier, later⟩
  · exact absurd (later ▸ List.mem_append_cons_self) other
  · cases as with
    | nil =>
        rw [List.nil_append] at later
        exact absurd (later ▸ List.mem_cons_self) other
    | cons first as =>
        obtain ⟨rfl, rest⟩ := List.cons.inj later
        exact ⟨as, earlier, rest⟩

theorem silent_succ {i j : Nat} {name : String}
    (silent : ∀ k s, j < k → k < i → b.steps[k]? = some s → name ∈ s.assignedNames src →
      s.Unfollowed)
    (last : ∀ s, b.steps[i]? = some s → name ∈ s.assignedNames src → s.Unfollowed) :
    ∀ k s, j < k → k < i + 1 → b.steps[k]? = some s → name ∈ s.assignedNames src →
      s.Unfollowed := by
  intro k s behind before step
  rcases Nat.lt_succ_iff_lt_or_eq.mp before with inside | rfl
  · exact silent k s behind inside step
  · exact last s step

/-- The latest binding of a name before a step is made by a parameter or by the step behind which
nothing that assigns the name is followed. -/
theorem exists_latest {i : Nat} {name : String} {d : Node} {bs cs : Layer}
    (same : b.layer src outer i = bs ++ (name, d) :: cs) (latest : ¬ cs.Binds name) :
    (∃ j s, j < i ∧ b.steps[j]? = some s ∧
      s.node src (b.layer src outer j :: outer) = d ∧
      name ∈ s.assignedNames src ∧ ¬ s.Unfollowed ∧
      ∀ k s', j < k → k < i → b.steps[k]? = some s' → name ∈ s'.assignedNames src →
        s'.Unfollowed) ∨ IsParameter d := by
  induction i generalizing bs cs with
  | zero =>
      have start : b.layer src outer 0 = .ofParameters src b.parameters := by
        simp [layer, Layer.made]
      rw [start] at same
      exact .inr (mem_ofParameters (same ▸ List.mem_append_cons_self)).2
  | succ i ih =>
      cases step : b.steps[i]? with
      | none =>
          rw [layer_succ_of_none step] at same
          rcases ih same latest with ⟨j, s, before, found, node, assigns, followed, silent⟩ | h
          · refine .inl ⟨j, s, by omega, found, node, assigns, followed, silent_succ silent ?_⟩
            intro s' found
            cases step.symm.trans found
          · exact .inr h
      | some s =>
          have regular := regular_of_getElem? step
          rw [layer_succ step] at same
          by_cases bound : (name, d) ∈ s.made src (s.node src (b.layer src outer i :: outer))
          · -- the step itself makes the binding
            obtain ⟨⟨assigns, followed⟩, -, node⟩ := regular.mem_made.mp bound
            exact .inl ⟨i, s, Nat.lt_succ_self i, step, node.symm, assigns, followed,
              fun k s' hj hk => absurd hk (by omega)⟩
          · obtain ⟨cs', earlier, rfl⟩ := eq_append_of_not_made same bound
            have latest' : ¬ Layer.Binds cs' name := by
              rintro ⟨d', member⟩
              exact latest ⟨d', List.mem_append_left _ member⟩
            have unbound :
                ¬ (s.made src (s.node src (b.layer src outer i :: outer))).Binds name := by
              rintro ⟨d', member⟩
              exact latest ⟨d', List.mem_append_right _ member⟩
            have named := named_of_mem_layer (earlier ▸ List.mem_append_cons_self)
            rcases ih earlier latest' with
              ⟨j, s₀, before, found, node, assigns, followed, silent⟩ | h
            · refine .inl ⟨j, s₀, by omega, found, node, assigns, followed, silent_succ silent ?_⟩
              intro s' found
              cases step.symm.trans found
              exact unfollowed_of_unbound regular named unbound
            · exact .inr h

/-- In a block that does not bind a name, the steps that assign it are not followed, and no
parameter has the name. -/
theorem silent_of_unbound {i : Nat} {name : String} (named : name ≠ "" ∧ name ≠ "_")
    (unbound : ¬ (b.layer src outer i).Binds name) :
    name ∉ b.parameterNames src ∧
      ∀ k s, k < i → b.steps[k]? = some s → name ∈ s.assignedNames src → s.Unfollowed := by
  constructor
  · intro parameter
    obtain ⟨p, hp, parameter⟩ := List.mem_flatMap.mp parameter
    obtain ⟨n, hn, rfl⟩ := List.mem_map.mp parameter
    let d : Node := .other (n.line src) (.str "parameter") (.str (p.text src))
    have declared : (n.text src, d) ∈ Layer.ofParameters src b.parameters :=
      List.mem_flatMap.mpr ⟨p, hp, List.mem_flatMap.mpr
        ⟨n, hn, Layer.mem_ofNames.mpr ⟨List.mem_singleton_self _, named, rfl⟩⟩⟩
    exact unbound ⟨d, List.mem_append_left _ declared⟩
  · intro k s before step
    let n := s.node src (b.layer src outer k :: outer)
    have made : (s, n) ∈ (b.steps.take i).zip ((b.nodes src outer).take i) := by
      refine List.mem_iff_getElem?.mpr ⟨k, List.getElem?_zip_eq_some.mpr ⟨?_, ?_⟩⟩
      · rw [List.getElem?_take_of_lt before, step]
      · rw [List.getElem?_take_of_lt before, getElem?_nodes step]
    exact unfollowed_of_unbound (n := n) (regular_of_getElem? step) named fun ⟨d, member⟩ =>
      unbound ⟨d, List.mem_append_right _ (List.mem_flatMap.mpr ⟨(s, n), made, member⟩)⟩

end Block

theorem Finds.mem {ctx : List Layer} {name : String} {d : Node} (h : Finds ctx name d) :
    ∃ layer ∈ ctx, (name, d) ∈ layer := by
  induction h with
  | here latest => exact ⟨_, .head _, List.mem_append_cons_self⟩
  | outwards unbound h ih =>
      obtain ⟨layer, member, bound⟩ := ih
      exact ⟨layer, .tail _ member, bound⟩

theorem Surroundings.named_of_mem {src : Source} {scopes : Surroundings} {layer : Layer}
    (h : layer ∈ scopes.layers src) {name : String} {d : Node} (member : (name, d) ∈ layer) :
    name ≠ "" ∧ name ≠ "_" := by
  induction scopes with
  | nil => cases h
  | cons scope outer ih =>
      rcases List.mem_cons.mp h with rfl | h
      · exact Block.named_of_mem_layer member
      · exact ih h

/-- What a name is linked to is its latest followed assignment, or a parameter. -/
theorem latest_of_finds {src : Source} {scopes : Surroundings} {name : String} {d : Node}
    (h : Finds (scopes.layers src) name d) :
    (∃ spot, Latest src name scopes spot ∧ spot.node src = d) ∨ IsParameter d := by
  have named : name ≠ "" ∧ name ≠ "_" := by
    obtain ⟨layer, member, bound⟩ := h.mem
    exact Surroundings.named_of_mem member bound
  generalize around : scopes.layers src = ctx at h
  induction h generalizing scopes with
  | here latest =>
      cases scopes with
      | nil => cases around
      | cons scope outer =>
          obtain ⟨same, -⟩ := List.cons.inj around
          rcases Block.exists_latest same latest with
            ⟨j, s, before, step, node, assigns, followed, silent⟩ | parameter
          · exact .inl ⟨⟨(scope.1, j) :: outer, s⟩, .here before step assigns followed silent, node⟩
          · exact .inr parameter
  | outwards unbound h ih =>
      cases scopes with
      | nil => cases around
      | cons scope outer =>
          obtain ⟨rfl, rest⟩ := List.cons.inj around
          obtain ⟨other, silent⟩ := Block.silent_of_unbound named unbound
          rcases ih named rest with ⟨spot, latest, node⟩ | parameter
          · exact .inl ⟨spot, .outwards other silent latest, node⟩
          · exact .inr parameter

end TestRoster.Go
