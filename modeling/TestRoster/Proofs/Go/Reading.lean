import TestRoster.Proofs.Go.Outline

/-!
The readings of a concrete tree, as its outline tells them.

Every role of a node is put together from the roles of its parts; each equation says from which.
-/
namespace TestRoster.Go

namespace Reading

theorem ofCsts_eq_map (src : Source) (cs : List Cst) : ofCsts src cs = cs.map (ofCst src) := by
  induction cs with
  | nil => rfl
  | cons c rest ih => rw [ofCsts, ih, List.map_cons]

theorem ofCst_eq (src : Source) (c : Cst) :
    ofCst src c = combine src c.info (c.children.map (ofCst src)) := by
  cases c with
  | node i cs => rw [ofCst, ofCsts_eq_map]; rfl

@[simp] theorem info_ofCst (src : Source) (c : Cst) : (ofCst src c).info = c.info := by
  cases c
  rfl

theorem named_map (src : Source) (c : Cst) :
    named (c.children.map (ofCst src)) = c.parts.map (ofCst src) := by
  simp only [named, Cst.parts, List.filter_map, Function.comp_def, info_ofCst]

theorem at?_map (src : Source) (c : Cst) (field : String) :
    at? (c.children.map (ofCst src)) field = (c.at? field).map (ofCst src) := by
  simp only [at?, Cst.at?, List.find?_map, Function.comp_def, info_ofCst]

theorem allAt_map (src : Source) (c : Cst) (field : String) :
    allAt (c.children.map (ofCst src)) field = (c.allAt field).map (ofCst src) := by
  simp only [allAt, Cst.allAt, List.filter_map, Function.comp_def, info_ofCst]

end Reading

namespace Cst

variable (src : Source)

def expr (c : Cst) : Expr :=
  (Reading.ofCst src c).expression

def elem (c : Cst) : Element :=
  (Reading.ofCst src c).element

def stmts (c : Cst) : List Stmt :=
  (Reading.ofCst src c).statements

def declared (c : Cst) : List Parameter :=
  (c.allAt "name").map fun n => ⟨n.line src, n.text src, c.text src⟩

end Cst

namespace Reading

variable (src : Source) (c : Cst)

theorem expressions_ofCst : (ofCst src c).expressions = c.parts.map (Cst.expr src) := by
  rw [ofCst_eq]
  simp only [combine, named_map, List.map_map]
  rfl

theorem elements_ofCst : (ofCst src c).elements = c.parts.map (Cst.elem src) := by
  rw [ofCst_eq]
  simp only [combine, elementsOf, named_map, List.map_map]
  rfl

theorem partInfos_ofCst : (ofCst src c).partInfos = c.parts.map Cst.info := by
  rw [ofCst_eq]
  simp only [combine, named_map, List.map_map]
  congr 1
  funext p
  exact info_ofCst src p

theorem expressionsAt_map (field : String) :
    expressionsAt (c.children.map (ofCst src)) field = (c.partsAt field).map (Cst.expr src) := by
  rw [expressionsAt, at?_map, Cst.partsAt]
  cases c.at? field with
  | none => rfl
  | some p => exact expressions_ofCst src p

theorem expressionAt_map (field : String) :
    expressionAt (c.children.map (ofCst src)) field =
      ((c.at? field).map (Cst.expr src)).getD .absent := by
  rw [expressionAt, at?_map]
  cases c.at? field <;> rfl

theorem textAt_map (field : String) :
    textAt src (c.children.map (ofCst src)) field =
      ((c.at? field).map (Cst.text src)).getD "" := by
  rw [textAt, at?_map]
  cases c.at? field with
  | none => rfl
  | some p => simp [textOf, Cst.text]

theorem partTextsAt_map (field : String) :
    partTextsAt src (c.children.map (ofCst src)) field = (c.partsAt field).map (Cst.text src) := by
  rw [partTextsAt, at?_map, Cst.partsAt]
  cases c.at? field with
  | none => rfl
  | some p =>
      simp only [Option.map_some, Option.getD_some, partInfos_ofCst, List.map_map]
      rfl

theorem declared_ofCst : (ofCst src c).declared = c.declared src := by
  rw [ofCst_eq]
  simp only [combine, declaredOf, allAt_map, List.map_map, Cst.declared, Function.comp_def,
    info_ofCst]
  rfl

theorem parametersAt_map (field : String) :
    parametersAt (c.children.map (ofCst src)) field =
      (c.partsAt field).flatMap (Cst.declared src) := by
  rw [parametersAt, at?_map, Cst.partsAt]
  cases c.at? field with
  | none => rfl
  | some p =>
      simp only [Option.map_some, Option.getD_some]
      rw [ofCst_eq]
      simp only [combine, named_map, List.flatMap_map, declared_ofCst]

theorem partStatements_ofCst : (ofCst src c).partStatements = c.parts.flatMap (Cst.stmts src) := by
  rw [ofCst_eq]
  simp only [combine, named_map, List.flatMap_map]
  rfl

/-- The statements of a block, lists of statements opened. -/
theorem blockAt_map (field : String) :
    blockAt (c.children.map (ofCst src)) field =
      (c.statementsAt field).flatMap (Cst.stmts src) := by
  rw [blockAt, at?_map, Cst.statementsAt, Cst.partsAt]
  cases c.at? field with
  | none => rfl
  | some p =>
      simp only [Option.map_some, Option.getD_some, List.flatMap_assoc]
      rw [ofCst_eq]
      simp only [combine, named_map, List.flatMap_map, info_ofCst, partStatements_ofCst]
      congr 1
      funext s
      split
      · rfl
      · exact (List.flatMap_singleton ..).symm

end Reading

def Form.expr (src : Source) (c : Cst) : Form → Expr
  | .inner e => e.expr src
  | .name => .name (c.line src) (c.text src)
  | .fieldName => .fieldName (c.line src) (c.text src)
  | .literal => .literal (c.line src) (c.text src)
  | .call callee arguments =>
      .call (c.line src) ((callee.map (Cst.expr src)).getD .absent) (arguments.map (Cst.expr src))
  | .select operand field =>
      .select (c.line src) ((operand.map (Cst.expr src)).getD .absent)
        ((field.map (Cst.text src)).getD "")
  | .function parameters statements =>
      .function (c.line src) (parameters.flatMap (Cst.declared src))
        (statements.flatMap (Cst.stmts src))
  | .composite elements => .composite (c.line src) (elements.map (Cst.elem src))
  | .indirect operand => .indirect (c.line src) (operand.expr src)
  | .kept => .other (c.line src) c.info.kind (Reading.shorten (c.text src))

namespace Reading

variable (src : Source) (c : Cst)

/-- Kinds are asked for in one order on both sides. -/
theorem ite_eq_apply {α β : Type} (f : α → β) {p : Prop} [Decidable p] {x x' : β} {a a' : α}
    (h : x = f a) (h' : x' = f a') : (if p then x else x') = f (if p then a else a') := by
  split
  · exact h
  · exact h'

theorem expr_eq_form : c.expr src = c.form.expr src c := by
  rw [Cst.expr, ofCst_eq]
  change expressionOf src c.info (c.children.map (ofCst src)) = _
  unfold expressionOf Cst.form
  simp only [named_map, at?_map, expressionsAt_map, expressionAt_map, textAt_map,
    parametersAt_map, blockAt_map, elementsOf]
  have next {p : Prop} [Decidable p] {e e' : Expr} {f f' : Form} :=
    @ite_eq_apply Form Expr (Form.expr src c) p _ e e' f f'
  refine next ?inner (next rfl (next rfl (next rfl (next rfl (next rfl (next rfl (next ?composite
    (next ?literalValue (next ?unary rfl)))))))))
  case inner => cases c.parts <;> rfl
  case composite =>
      rw [Cst.partsAt]
      cases c.at? "body" with
      | none => rfl
      | some body => exact congrArg (Expr.composite _) (elements_ofCst src body)
  case literalValue =>
      rw [List.map_map]
      rfl
  case unary =>
      cases c.at? "operator" with
      | none => rfl
      | some operator =>
          cases c.at? "operand" with
          | none => rfl
          | some operand =>
              simp only [Option.map_some, info_ofCst]
              exact next rfl rfl

theorem expr_ne_absent (c : Cst) : c.expr src ≠ .absent := by
  rw [expr_eq_form]
  cases hf : c.form with
  | inner e =>
      have smaller : sizeOf e < sizeOf c := by
        have below := c.below_form
        rw [hf] at below
        exact below e (by simp [Form.parts])
      exact expr_ne_absent e
  | name | fieldName | literal | call | select | function | composite | indirect | kept =>
      intro h
      cases h
  termination_by sizeOf c

theorem elem_eq : c.elem src =
    if c.info.kind == "keyed_element" then
      match c.parts with
      | [key, value] => .keyed (c.line src) (key.expr src) (value.expr src)
      | _ => .other (c.line src) c.info.kind (shorten (c.text src))
    else .positional (c.line src) (c.expr src) := by
  rw [Cst.elem, Cst.expr, ofCst_eq]
  change elementOf src c.info (c.children.map (ofCst src)) _ = _
  unfold elementOf
  rw [named_map]
  split
  · match c.parts with
    | [] | [_] | [_, _] | _ :: _ :: _ :: _ => rfl
  · rfl

end Reading

def Cst.clauses (src : Source) (c : Cst) : List Clause :=
  c.parts.flatMap fun k => (Reading.ofCst src k).clauses

def Part.stmt (src : Source) : Part → Stmt
  | .expression c => .expression (c.expr src)
  | .binding site names values => .bind (site.line src) names (values.map (Cst.expr src))
  | .loop c =>
      .loop (c.line src) (c.clauses src) ((c.statementsAt "body").flatMap (Cst.stmts src))
  | .kept c => .other (c.line src) c.info.kind (Reading.shorten (c.text src))
  | .place _ | .element _ | .range _ | .declaration _ => .expression .absent

namespace Reading

variable (src : Source)

theorem spec_ofCst (c : Cst) : (ofCst src c).spec = (c.specStep src).stmt src := by
  rw [ofCst_eq]
  change specOf src c.info (c.children.map (ofCst src)) = _
  simp only [specOf, allAt_map, List.map_map, expressionsAt_map, Function.comp_def, info_ofCst]
  rfl

mutual

theorem specs_ofCst (c : Cst) :
    (ofCst src c).specs = c.specs.map fun s => (s.specStep src).stmt src := by
  cases c with
  | node i cs => exact specsOf_ofCsts cs

theorem specsOf_ofCsts (cs : List Cst) :
    specsOf (ofCsts src cs) =
      (Cst.specsAmong cs).map fun s => (s.specStep src).stmt src := by
  cases cs with
  | nil => rfl
  | cons c rest =>
      have ih := specsOf_ofCsts rest
      have opened := specs_ofCst c
      unfold specsOf at ih ⊢
      rw [Cst.specsAmong, List.map_append, ← ih, ofCsts, named, List.filter_cons, info_ofCst]
      cases c.info.isNamed with
      | false => rfl
      | true =>
          simp only [if_true, List.flatMap_cons, info_ofCst, spec_ofCst, opened, Bool.not_true,
            Bool.false_eq_true, if_false]
          congr 1
          split
          · rfl
          · split <;> rfl

end

theorem assignment_ofCst (c : Cst) :
    assignmentOf src c.info (c.children.map (ofCst src)) ((Part.kept c).stmt src) =
      (if c.rebinds then Part.binding c (c.namesAt src) (c.partsAt "right")
      else Part.kept c).stmt src := by
  have left : ((at? (c.children.map (ofCst src)) "left").map (·.partInfos)).getD [] =
      (c.partsAt "left").map Cst.info := by
    rw [at?_map, Cst.partsAt]
    cases c.at? "left" with
    | none => rfl
    | some p => exact partInfos_ofCst src p
  have plain : (at? (c.children.map (ofCst src)) "operator").any (·.info.kind == "=") =
      (c.at? "operator").any (·.info.kind == "=") := by
    rw [at?_map]
    cases c.at? "operator" <;> simp
  have same : ((at? (c.children.map (ofCst src)) "operator").any (·.info.kind == "=") &&
      (((at? (c.children.map (ofCst src)) "left").map (·.partInfos)).getD []).all
        (·.kind == "identifier")) = c.rebinds := by
    rw [left, plain, List.all_map]
    rfl
  simp only [assignmentOf]
  rw [same, left, List.map_map, expressionsAt_map]
  exact ite_eq_apply (Part.stmt src) rfl rfl

/-- The statements that a node gives are its steps. -/
theorem stmts_eq (c : Cst) : c.stmts src = (c.steps src).map (Part.stmt src) := by
  rw [Cst.stmts, ofCst_eq]
  change statementsOf src c.info (c.children.map (ofCst src)) = _
  unfold statementsOf Cst.steps
  have next {p : Prop} [Decidable p] {xs xs' : List Stmt} {ys ys' : List Part} :=
    @ite_eq_apply (List Part) (List Stmt) (List.map (Part.stmt src)) p _ xs xs' ys ys'
  refine next ?expression (next ?loop (next ?short (next ?specs (next ?assignment rfl))))
  case expression =>
      rw [named_map, List.map_map, List.map_map]
      rfl
  case loop =>
      rw [named_map, List.flatMap_map, blockAt_map]
      rfl
  case short =>
      rw [partTextsAt_map, expressionsAt_map]
      rfl
  case specs =>
      have specs := specs_ofCst src c
      rw [ofCst_eq] at specs
      rw [List.map_map]
      exact specs
  case assignment =>
      have assignment := assignment_ofCst src c
      refine (congrArg (fun s => [s]) assignment).trans ?_
      split <;> rfl

end Reading

theorem Cst.isStep_of_mem_steps {src : Source} {c : Cst} {s : Part} (h : s ∈ c.steps src) :
    s.isStep := by
  unfold steps at h
  split at h
  · obtain ⟨e, -, rfl⟩ := List.mem_map.mp h
    rfl
  · split at h
    · obtain rfl := List.mem_singleton.mp h
      rfl
    · split at h
      · obtain rfl := List.mem_singleton.mp h
        rfl
      · split at h
        · obtain ⟨spec, -, rfl⟩ := List.mem_map.mp h
          rfl
        · split at h
          · split at h <;>
              · obtain rfl := List.mem_singleton.mp h
                rfl
          · obtain rfl := List.mem_singleton.mp h
            rfl

theorem Cst.isStep_of_mem_blockSteps {src : Source} {statements : List Cst} {s : Part}
    (h : s ∈ Cst.blockSteps src statements) : s.isStep := by
  obtain ⟨c, -, h⟩ := List.mem_flatMap.mp h
  exact Cst.isStep_of_mem_steps h

/-- A step of a loop's header as a clause. -/
def Part.clause (src : Source) : Part → Clause
  | .range k =>
      .range (k.line src) (k.namesAt src) (((k.at? "right").map (Cst.expr src)).getD .absent)
        k.declares
  | s => .before (s.stmt src)

theorem Part.clause_of_isStep {src : Source} {s : Part} (h : s.isStep) :
    s.clause src = .before (s.stmt src) := by
  cases s with
  | expression | binding | loop | kept => rfl
  | place | element | range | declaration => cases h

namespace Reading

variable (src : Source)

theorem hasToken_map (c : Cst) :
    hasToken (c.children.map (ofCst src)) ":=" = c.declares := by
  simp only [hasToken, List.any_map, Function.comp_def, info_ofCst, Cst.declares]

theorem clauses_ofCst (k : Cst) :
    (ofCst src k).clauses =
      (if k.info.kind == "range_clause" then [.range k]
      else if k.info.kind == "for_clause" then ((k.at? "initializer").map (Cst.steps src)).getD []
      else []).map (Part.clause src) := by
  rw [ofCst_eq]
  change clausesOf src k.info (k.children.map (ofCst src)) = _
  simp only [clausesOf]
  refine ite_eq_apply _ ?range (ite_eq_apply _ ?before rfl)
  case range =>
      rw [partTextsAt_map, expressionAt_map, hasToken_map]
      rfl
  case before =>
      rw [at?_map]
      cases k.at? "initializer" with
      | none => rfl
      | some s =>
          change (s.stmts src).map Clause.before = (s.steps src).map (Part.clause src)
          rw [stmts_eq, List.map_map]
          refine List.map_congr_left fun p hp => ?_
          exact (Part.clause_of_isStep (Cst.isStep_of_mem_steps hp)).symm

end Reading

theorem Cst.clauses_eq (src : Source) (c : Cst) :
    c.clauses src = (c.header src).map (Part.clause src) := by
  unfold Cst.clauses Cst.header
  rw [List.map_flatMap]
  congr 1
  funext k
  exact Reading.clauses_ofCst src k

/-- The statements of a block are its steps. -/
theorem Cst.stmts_flatMap (src : Source) (statements : List Cst) :
    statements.flatMap (Cst.stmts src) =
      (Cst.blockSteps src statements).map (Part.stmt src) := by
  rw [Cst.blockSteps, List.map_flatMap]
  congr 1
  funext c
  exact Reading.stmts_eq src c

/-- A node read as a function or method declaration. -/
def Cst.func (src : Source) (c : Cst) : Function where
  line := c.line src
  name := ((c.at? "name").map (Cst.text src)).getD ""
  receiver := c.receiver src
  parameters := c.parameters.flatMap (Cst.declared src)
  body := (c.body src).map (Part.stmt src)

namespace Reading

variable (src : Source)

theorem type_ofCst (c : Cst) : (ofCst src c).type = (c.at? "type").map (Cst.text src) := by
  rw [ofCst_eq]
  simp only [combine, at?_map, Option.map_map, Function.comp_def, info_ofCst]
  rfl

theorem partType_ofCst (c : Cst) :
    (ofCst src c).partType = (c.parts.findSome? (·.at? "type")).map (Cst.text src) := by
  rw [ofCst_eq]
  simp only [combine, named_map, List.findSome?_map, Function.comp_def, type_ofCst]
  exact List.map_findSome?.symm

theorem receiver_map (c : Cst) :
    ((at? (c.children.map (ofCst src)) "receiver").bind (·.partType)).map receiverName =
      ((c.partsAt "receiver").findSome? (·.at? "type")).map fun t =>
        receiverName (t.text src) := by
  rw [at?_map, Cst.partsAt]
  cases c.at? "receiver" with
  | none => rfl
  | some p => simp [partType_ofCst, Option.map_map, Function.comp_def]

theorem function_ofCst (c : Cst) :
    (ofCst src c).function =
      if c.info.kind == "function_declaration" || c.info.kind == "method_declaration" then
        some (c.func src)
      else none := by
  rw [ofCst_eq]
  change functionOf src c.info (c.children.map (ofCst src)) = _
  simp only [functionOf, textAt_map, parametersAt_map, blockAt_map, Cst.stmts_flatMap,
    receiver_map]
  by_cases plain : c.info.kind = "function_declaration"
  · simp [plain, Cst.func, Cst.parameters, Cst.receiver, Cst.body]
    rfl
  · by_cases method : c.info.kind = "method_declaration"
    · simp [method, Cst.func, Cst.parameters, Cst.receiver, Cst.body]
      rfl
    · simp [plain, method]

end Reading

/-- The file that a concrete tree stands for, by its outline. -/
theorem File.ofCst_eq (src : Source) (root : Cst) :
    File.ofCst src root =
      ⟨(root.packageSteps src).map (Part.stmt src), root.functions.map (Cst.func src)⟩ := by
  have bindings : root.parts.flatMap (fun c =>
      if c.info.kind == "var_declaration" || c.info.kind == "const_declaration" then
        c.specs.map fun s => (s.specStep src).stmt src
      else []) = (root.packageSteps src).map (Part.stmt src) := by
    rw [Cst.packageSteps, List.map_flatMap]
    congr 1
    funext c
    refine Reading.ite_eq_apply _ ?_ rfl
    rw [List.map_map]
    rfl
  have functions : root.functions.map (Cst.func src) = root.parts.filterMap fun c =>
      if c.info.kind == "function_declaration" || c.info.kind == "method_declaration" then
        some (c.func src)
      else none := by
    rw [Cst.functions, ← List.filterMap_eq_map, List.filterMap_filter]
    rfl
  rw [functions, ← bindings]
  simp only [File.ofCst, Reading.ofCsts_eq_map, Reading.named_map, List.flatMap_map,
    List.filterMap_map, Function.comp_def, Reading.info_ofCst, Reading.function_ofCst,
    Reading.specs_ofCst]

end TestRoster.Go
