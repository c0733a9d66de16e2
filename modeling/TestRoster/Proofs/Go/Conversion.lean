import TestRoster.Go.SourceTree
import TestRoster.Proofs.Go.Frame

/-!
The builder resolves names lexically.

Every part is converted to the one node that the builder makes of it: what is converted is made, by
induction on the conversion, and what is made is converted, by induction on the size of the tree.
-/
namespace TestRoster.Go

theorem Expr.nodes_eq_map (scope : Scope) (es : List Expr) :
    Expr.nodes scope es = es.map (Expr.node scope) := by
  induction es with
  | nil => rfl
  | cons e rest ih => rw [Expr.nodes, ih, List.map_cons]

theorem Element.nodes_eq_map (scope : Scope) (es : List Element) :
    Element.nodes scope es = es.map (Element.node scope) := by
  induction es with
  | nil => rfl
  | cons e rest ih => rw [Element.nodes, ih, List.map_cons]

/-- A list is told by each of its members. -/
theorem eq_map_iff {α β : Type} (g : α → β) (xs : List α) (ys : List β) :
    ys = xs.map g ↔ ys.length = xs.length ∧
      ∀ (i : Nat) x y, xs[i]? = some x → ys[i]? = some y → y = g x := by
  constructor
  · rintro rfl
    refine ⟨List.length_map g, fun i x y hx hy => ?_⟩
    rw [List.getElem?_map, hx] at hy
    exact (Option.some.inj hy).symm
  · rintro ⟨count, each⟩
    refine List.ext_getElem (by simp [count]) fun i hy hx => ?_
    have bound : i < xs.length := by simpa using hx
    rw [List.getElem_map]
    exact each i _ _ (List.getElem?_eq_getElem bound) (List.getElem?_eq_getElem hy)

namespace Part

variable (src : Source) (ctx : List Layer)

/-- The nodes of a block: each step among the bindings of the steps before it. -/
def blockNodes (initial : Layer) (steps : List Part) : List Node :=
  Layer.run src (fun layer s => s.node src (layer :: ctx)) initial steps

theorem node_form {c : Cst} {f : Form} (form : c.form = f) :
    (Part.expression c).node src ctx = (f.expr src c).node (frames ctx) := by
  rw [← form, ← Reading.expr_eq_form]
  rfl

theorem nodes_steps (layer : Layer) (statements : List Cst) :
    Stmt.nodes (frames (layer :: ctx))
        ((Cst.blockSteps src statements).map (Part.stmt src)) =
      blockNodes src ctx layer (Cst.blockSteps src statements) :=
  Layer.nodes_eq_run src ctx layer fun _ h => Cst.isStep_of_mem_blockSteps h

theorem node_call {c : Cst} {callee : Option Cst} {arguments : List Cst}
    (form : c.form = .call callee arguments) :
    (Part.expression c).node src ctx =
      .invocation (c.line src) ((Part.place callee).node src ctx)
        (.nodes (arguments.map fun a => (Part.expression a).node src ctx)) := by
  rw [node_form src ctx form, Form.expr, Expr.node, Expr.nodes_eq_map, List.map_map]
  rfl

theorem node_function {c : Cst} {parameters statements : List Cst}
    (form : c.form = .function parameters statements) :
    (Part.expression c).node src ctx =
      .closure (c.line src) (.nodes (blockNodes src ctx (Layer.ofParameters src parameters)
        (Cst.blockSteps src statements))) := by
  have opened : ([] :: frames ctx) = frames ([] :: ctx) := rfl
  rw [node_form src ctx form, Form.expr, Expr.node, Cst.stmts_flatMap, opened,
    Layer.bindParameters_frames, List.nil_append, nodes_steps]

theorem node_composite {c : Cst} {elements : List Cst} (form : c.form = .composite elements) :
    (Part.expression c).node src ctx =
      .compositeValue (c.line src)
        (.nodes (elements.map fun e => (Part.element e).node src ctx)) := by
  rw [node_form src ctx form, Form.expr, Expr.node, Element.nodes_eq_map,
    List.map_map]
  rfl

theorem node_keyed {c key value : Cst} (kind : c.info.kind = "keyed_element")
    (parts : c.parts = [key, value]) :
    (Part.element c).node src ctx =
      .keyedElement (c.line src) ((Part.expression key).node src ctx)
        ((Part.expression value).node src ctx) := by
  change (c.elem src).node (frames ctx) = _
  rw [Reading.elem_eq, kind, if_pos (beq_self_eq_true _), parts]
  rfl

theorem node_keptElement {c : Cst} (kind : c.info.kind = "keyed_element")
    (parts : c.parts.length ≠ 2) : (Part.element c).node src ctx = c.keptNode src := by
  change (c.elem src).node (frames ctx) = _
  rw [Reading.elem_eq, if_pos (beq_iff_eq.mpr kind)]
  match hp : c.parts with
  | [] | [_] | _ :: _ :: _ :: _ => rfl
  | [_, _] => simp [hp] at parts

theorem node_positional {c : Cst} (kind : c.info.kind ≠ "keyed_element") :
    (Part.element c).node src ctx =
      .positionalElement (c.line src) ((Part.expression c).node src ctx) := by
  change (c.elem src).node (frames ctx) = _
  rw [Reading.elem_eq, if_neg (mt beq_iff_eq.mp kind)]
  rfl

theorem node_range (layer : Layer) (clause : Cst) :
    (Part.range clause).node src (layer :: ctx) =
      bindingNode (clause.line src) (clause.namesAt src)
        ((clause.at? "right").toList.map fun _ =>
          (Part.place (clause.at? "right")).node src ctx) true := by
  cases hr : clause.at? "right" with
  | none => simp [Part.node, hr]
  | some r => simp [Part.node, hr]

theorem node_binding (site : Cst) (names : List String) (values : List Cst) :
    (Part.binding site names values).node src ctx =
      bindingNode (site.line src) names
        (values.map fun v => (Part.expression v).node src ctx) false := by
  rw [Part.node, Part.stmt, Stmt.node, Expr.nodes_eq_map, List.map_map]
  · rfl
  all_goals
    intro _ h
    cases h

theorem node_loop (c : Cst) :
    (Part.loop c).node src ctx =
      .iteration (c.line src)
        (loopSource (c.header src) (blockNodes src ctx [] (c.header src)))
        (.nodes (blockNodes src ctx
          (Layer.made src (c.header src) (blockNodes src ctx [] (c.header src)))
          (c.body src))) := by
  have opened : ([] :: frames ctx) = frames ([] :: ctx) := rfl
  have header := Layer.header_eq_run src ctx [] .null fun s (h : s ∈ c.header src) =>
    Cst.isHeader_of_mem_header h
  rw [List.nil_append] at header
  change ((Stmt.loop (c.line src) (c.clauses src)
    ((c.statementsAt "body").flatMap (Cst.stmts src))).node (frames ctx)).1 = _
  rw [Stmt.node, Cst.clauses_eq, Cst.stmts_flatMap, opened, header]
  exact congrArg (fun ns => Node.iteration (c.line src) _ (.nodes ns))
    (nodes_steps src ctx _ (c.statementsAt "body"))

theorem node_declaration (c : Cst) :
    (Part.declaration c).node src ctx =
      .declaration (c.line src) (.str (((c.at? "name").map (Cst.text src)).getD ""))
        (.nodes (blockNodes src ctx (Layer.ofParameters src c.parameters) (c.body src)))
        (((c.receiver src).map Datum.str).getD .null) := by
  have opened : ([] :: frames ctx) = frames ([] :: ctx) := rfl
  change (c.func src).node (frames ctx) = _
  rw [Function.node, opened, Cst.func, Layer.bindParameters_frames, List.nil_append]
  exact congrArg (fun ns => Node.declaration (c.line src) _ (.nodes ns) _)
    (nodes_steps src ctx _ (c.statementsAt "body"))

end Part

/-- The conversion of a block, with all that it was told step by step. -/
theorem Part.eq_blockNodes_iff (src : Source) (ctx : List Layer) (initial : Layer)
    (steps : List Part) (nodes : List Node) :
    nodes = blockNodes src ctx initial steps ↔ nodes.length = steps.length ∧
      ∀ (i : Nat) s n, steps[i]? = some s → nodes[i]? = some n →
        n = s.node src ((initial ++ Layer.made src (steps.take i) (nodes.take i)) :: ctx) :=
  Layer.eq_run_iff src _ initial steps nodes

/-- What a part is converted to is what the builder makes of it. -/
theorem Converts.eq_node {src : Source} {ctx : List Layer} {p : Part} {n : Node}
    (h : Converts src ctx p n) : n = p.node src ctx := by
  induction h with
  | absent => rfl
  | present h ih => exact ih
  | inner form h ih => exact ih.trans (Part.node_form _ _ form).symm
  | bound form h =>
      rw [Part.node_form _ _ form, Form.expr, Expr.node, lookup_frames_eq_some.mpr h]
      rfl
  | unbound form h =>
      rw [Part.node_form _ _ form, Form.expr, Expr.node, lookup_frames_eq_none.mpr h]
      rfl
  | fieldName form | literal form | keptExpression form => exact (Part.node_form _ _ form).symm
  | call form hf count each ihf ih =>
      rw [Part.node_call _ _ form, ← ihf]
      exact congrArg (fun ns => Node.invocation _ _ (.nodes ns))
        ((eq_map_iff _ _ _).mpr ⟨count, ih⟩)
  | select form h ih =>
      rw [Part.node_form _ _ form, ih]
      rfl
  | function form count each ih =>
      rw [Part.node_function _ _ form]
      exact congrArg (fun ns => Node.closure _ (.nodes ns))
        ((Part.eq_blockNodes_iff ..).mpr ⟨count, ih⟩)
  | composite form count each ih =>
      rw [Part.node_composite _ _ form]
      exact congrArg (fun ns => Node.compositeValue _ (.nodes ns))
        ((eq_map_iff _ _ _).mpr ⟨count, ih⟩)
  | indirect form h ih =>
      rw [Part.node_form _ _ form, ih]
      rfl
  | keyed kind parts hk hv ihk ihv =>
      rw [ihk, ihv, Part.node_keyed _ _ kind parts]
  | keptElement kind parts => exact (Part.node_keptElement _ _ kind parts).symm
  | positional kind h ih => rw [ih, Part.node_positional _ _ kind]
  | binding count each ih =>
      rw [Part.node_binding, (eq_map_iff _ _ _).mpr ⟨count, ih⟩]
  | range h ih => rw [ih, Part.node_range]
  | loop headerCount bodyCount each ih =>
      have all := (Part.eq_blockNodes_iff _ _ [] _ _).mpr
        ⟨by rw [List.length_append, List.length_append, headerCount, bodyCount], ih⟩
      rw [Part.blockNodes, Layer.run_append] at all
      obtain ⟨rfl, rfl⟩ := List.append_inj all (by rw [headerCount, Layer.length_run])
      exact (Part.node_loop _ _ _).symm
  | declaration count each ih =>
      rw [Part.node_declaration]
      exact congrArg (fun ns => Node.declaration _ _ (.nodes ns) _)
        ((Part.eq_blockNodes_iff ..).mpr ⟨count, ih⟩)
  | kept => rfl

theorem Part.isHeader_of_isStep {s : Part} (h : s.isStep) : s.isHeader := by
  cases s with
  | expression | binding | loop | kept => rfl
  | place | element | range | declaration => cases h

/-- That every tree smaller than `k` is converted to what the builder makes of it. -/
def Made (src : Source) (k : Nat) : Prop :=
  ∀ c : Cst, sizeOf c < k → ∀ ctx,
    Converts src ctx (.expression c) ((Part.expression c).node src ctx) ∧
      Converts src ctx (.loop c) ((Part.loop c).node src ctx)

namespace Made

variable {src : Source} {k : Nat}

theorem place (h : Made src k) {c : Option Cst} (below : ∀ e ∈ c, sizeOf e < k)
    (ctx : List Layer) : Converts src ctx (.place c) ((Part.place c).node src ctx) := by
  cases c with
  | none => exact .absent
  | some e => exact .present (h e (below e rfl) ctx).1

theorem element (h : Made src k) {c : Cst} (below : sizeOf c < k) (ctx : List Layer) :
    Converts src ctx (.element c) ((Part.element c).node src ctx) := by
  have part {p : Cst} (hp : p ∈ c.parts) := (h p (Nat.lt_trans (Cst.sizeOf_parts hp) below) ctx).1
  by_cases kind : c.info.kind = "keyed_element"
  · match parts : c.parts with
    | [key, value] =>
        rw [Part.node_keyed _ _ kind parts]
        exact .keyed kind parts (part (by simp [parts])) (part (by simp [parts]))
    | [] | [_] | _ :: _ :: _ :: _ =>
        have odd : c.parts.length ≠ 2 := by simp [parts]
        rw [Part.node_keptElement _ _ kind odd]
        exact .keptElement kind odd
  · rw [Part.node_positional _ _ kind]
    exact .positional kind (h c below ctx).1

/-- Members of a list, each converted on its own. -/
theorem list {g : Cst → Part} {ctx : List Layer} {cs : List Cst}
    (h : ∀ c ∈ cs, Converts src ctx (g c) ((g c).node src ctx)) (i : Nat) (c : Cst) (n : Node)
    (hc : cs[i]? = some c) (hn : (cs.map fun c => (g c).node src ctx)[i]? = some n) :
    Converts src ctx (g c) n := by
  have same := ((eq_map_iff _ cs _).mp rfl).2 i c n hc hn
  rw [same]
  exact h c (List.mem_of_getElem? hc)

theorem step (h : Made src k) {s : Part} (hs : s.isHeader) (below : s.Below k) (layer : Layer)
    (ctx : List Layer) : Converts src (layer :: ctx) s (s.node src (layer :: ctx)) := by
  cases s with
  | expression c => exact (h c below _).1
  | loop c => exact (h c below _).2
  | kept c => exact .kept
  | binding site names values =>
      rw [Part.node_binding]
      exact .binding (List.length_map ..) (list fun v hv => (h v (below v hv) _).1)
  | range clause =>
      rw [Part.node_range]
      exact .range (h.place (fun e he => Nat.lt_trans (Cst.sizeOf_at? he) below) ctx)
  | place | element | declaration => cases hs

/-- The steps of a block, each converted among the bindings of the steps before it. -/
theorem block (h : Made src k) {initial : Layer} {ctx : List Layer} {steps : List Part}
    (hs : ∀ s ∈ steps, s.isHeader ∧ s.Below k) (i : Nat) (s : Part) (n : Node)
    (hi : steps[i]? = some s) (hn : (Part.blockNodes src ctx initial steps)[i]? = some n) :
    Converts src ((initial ++ Layer.made src (steps.take i)
      ((Part.blockNodes src ctx initial steps).take i)) :: ctx) s n := by
  have same := ((Part.eq_blockNodes_iff src ctx initial steps _).mp rfl).2 i s n hi hn
  obtain ⟨header, below⟩ := hs s (List.mem_of_getElem? hi)
  rw [same]
  exact h.step header below _ ctx

theorem expression (h : Made src k) {c : Cst} (hc : sizeOf c ≤ k) (ctx : List Layer) :
    Converts src ctx (.expression c) ((Part.expression c).node src ctx) := by
  have below {p : Cst} (hp : p ∈ c.form.parts) : sizeOf p < k :=
    Nat.lt_of_lt_of_le (c.below_form p hp) hc
  cases form : c.form with
  | inner e =>
      rw [Part.node_form _ _ form]
      exact .inner form (h e (below (by simp [form, Form.parts])) ctx).1
  | name =>
      rw [Part.node_form _ _ form, Form.expr, Expr.node]
      cases found : (frames ctx).lookup (c.text src) with
      | none => exact .unbound form (lookup_frames_eq_none.mp found)
      | some d => exact .bound form (lookup_frames_eq_some.mp found)
  | fieldName =>
      rw [Part.node_form _ _ form]
      exact .fieldName form
  | literal =>
      rw [Part.node_form _ _ form]
      exact .literal form
  | call callee arguments =>
      rw [Part.node_call _ _ form]
      refine .call form (h.place (fun e he => below ?_) ctx) (List.length_map ..)
        (list fun a ha => (h a (below ?_) ctx).1)
      · simp [form, Form.parts, Option.mem_def.mp he]
      · simp [form, Form.parts, ha]
  | select operand field =>
      rw [Part.node_form _ _ form]
      refine .select form (h.place (fun e he => below ?_) ctx)
      simp [form, Form.parts, Option.mem_def.mp he]
  | function parameters statements =>
      rw [Part.node_function _ _ form]
      refine .function form (Layer.length_run ..) (h.block fun s hs => ?_)
      obtain ⟨statement, member, step⟩ := List.mem_flatMap.mp hs
      have smaller := below (p := statement) (by simp [form, Form.parts, member])
      exact ⟨Part.isHeader_of_isStep (Cst.isStep_of_mem_steps step), Cst.below_steps step smaller⟩
  | composite elements =>
      rw [Part.node_composite _ _ form]
      refine .composite form (List.length_map ..) (list fun e he => h.element (below ?_) ctx)
      simp [form, Form.parts, he]
  | indirect operand =>
      rw [Part.node_form _ _ form]
      exact .indirect form (h operand (below (by simp [form, Form.parts])) ctx).1
  | kept =>
      rw [Part.node_form _ _ form]
      exact .keptExpression form

theorem body {c : Cst} (hc : sizeOf c ≤ k) {s : Part} (hs : s ∈ c.body src) :
    s.isHeader ∧ s.Below k :=
  ⟨Part.isHeader_of_isStep (Cst.isStep_of_mem_blockSteps hs), Cst.below_blockSteps hs hc⟩

theorem loop (h : Made src k) {c : Cst} (hc : sizeOf c ≤ k) (ctx : List Layer) :
    Converts src ctx (.loop c) ((Part.loop c).node src ctx) := by
  have split := Layer.run_append src (fun layer s => s.node src (layer :: ctx)) []
    (c.header src) (c.body src)
  rw [Part.node_loop]
  refine .loop (Layer.length_run ..) (Layer.length_run ..) ?_
  rw [Part.blockNodes, Part.blockNodes, ← List.nil_append (Layer.made ..), ← split]
  intro i s n hs hn
  refine h.block (fun s hs => ?_) i s n hs hn
  rcases List.mem_append.mp hs with hs | hs
  · exact ⟨Cst.isHeader_of_mem_header hs, Cst.below_header hs hc⟩
  · exact body hc hs

end Made

theorem made (src : Source) (k : Nat) : Made src k := by
  induction k with
  | zero =>
      intro c hc
      cases hc
  | succ k ih =>
      intro c hc ctx
      have bound := Nat.le_of_lt_succ hc
      exact ⟨ih.expression bound ctx, ih.loop bound ctx⟩

theorem converts_declaration (src : Source) (c : Cst) (ctx : List Layer) :
    Converts src ctx (.declaration c) ((Part.declaration c).node src ctx) := by
  rw [Part.node_declaration]
  exact .declaration (Layer.length_run ..)
    ((made src (sizeOf c)).block fun s hs => Made.body (Nat.le_refl _) hs)

theorem Part.blockNodes_cons (src : Source) (ctx : List Layer) (initial : Layer) (s : Part)
    (rest : List Part) :
    blockNodes src ctx initial (s :: rest) =
      s.node src (initial :: ctx) ::
        blockNodes src ctx (initial ++ s.made src (s.node src (initial :: ctx))) rest := rfl

/-- The scope of a file holds what its package-level steps bind. -/
theorem scope_bindings (src : Source) (initial : Layer) {steps : List Part}
    (h : ∀ s ∈ steps, s.isStep) :
    (steps.map (Part.stmt src)).foldl (fun scope s => (s.node scope).2) (frames [initial]) =
      frames [initial ++ Layer.made src steps (Part.blockNodes src [] initial steps)] := by
  induction steps generalizing initial with
  | nil => simp [Layer.made]
  | cons s rest ih =>
      rw [List.map_cons, List.foldl_cons, Part.scope_node src (h s (.head _)),
        ih _ fun s' h' => h s' (.tail _ h'), Part.blockNodes_cons, Layer.made_cons,
        List.append_assoc]

theorem Cst.isStep_of_mem_packageSteps {src : Source} {root : Cst} {s : Part}
    (h : s ∈ root.packageSteps src) : s.isStep := by
  obtain ⟨c, -, h⟩ := List.mem_flatMap.mp h
  split at h
  · obtain ⟨spec, -, rfl⟩ := List.mem_map.mp h
    rfl
  · cases h

theorem Cst.below_packageSteps {src : Source} {root : Cst} {s : Part}
    (h : s ∈ root.packageSteps src) : s.Below (sizeOf root) := by
  obtain ⟨c, hc, h⟩ := List.mem_flatMap.mp h
  split at h
  · obtain ⟨spec, hs, rfl⟩ := List.mem_map.mp h
    exact Cst.below_specStep hs (Cst.sizeOf_parts hc)
  · cases h

/-- What a file declares: its functions in the scope of all package-level names. -/
theorem declarations_build (src : Source) (path : String) (root : Cst) :
    (SourceTree.build src path root).declarations =
      root.functions.map fun c => (Part.declaration c).node src
        [Layer.made src (root.packageSteps src)
          (Part.blockNodes src [] [] (root.packageSteps src))] := by
  have scope : (File.ofCst src root).scope = frames [Layer.made src (root.packageSteps src)
      (Part.blockNodes src [] [] (root.packageSteps src))] := by
    have bound := scope_bindings src [] fun s (h : s ∈ root.packageSteps src) =>
      Cst.isStep_of_mem_packageSteps h
    rw [List.nil_append] at bound
    rw [File.ofCst_eq]
    exact bound
  rw [SourceTree.build, File.declarations, scope, File.ofCst_eq, List.map_map]
  rfl

/-- The builder's declarations are those, and only those, that are scoped lexically. -/
theorem lexical_iff_build (src : Source) (path : String) (root : Cst) (declarations : List Node) :
    Lexical src root declarations ↔
      declarations = (SourceTree.build src path root).declarations := by
  rw [declarations_build]
  constructor
  · rintro ⟨ns, count, each, functions, converted⟩
    have bindings : ns = Part.blockNodes src [] [] (root.packageSteps src) :=
      (Part.eq_blockNodes_iff ..).mpr ⟨count, fun i s n hs hn => (each i s n hs hn).eq_node⟩
    rw [← bindings]
    exact (eq_map_iff _ _ _).mpr ⟨functions, fun i c d hc hd => (converted i c d hc hd).eq_node⟩
  · rintro rfl
    refine ⟨_, Layer.length_run .., (made src (sizeOf root)).block fun s hs => ?_,
      List.length_map .., Made.list fun c _ => converts_declaration src c _⟩
    exact ⟨Part.isHeader_of_isStep (Cst.isStep_of_mem_packageSteps hs),
      Cst.below_packageSteps hs⟩

/-- Every tree that parses is scoped lexically, and in no other way: each identifier of a converted
expression is linked to the latest binding made before it in the first scope, outwards, that binds
its name, and to nothing if there is none. -/
theorem parsed_declarations_are_lexical (src : Source) (path : String) (tolerate : Bool)
    (root : Cst) :
    match SourceTree.ofCst src path tolerate root with
    | .ok (tree, _) => ∀ declarations : List Node,
        Lexical src root declarations ↔ declarations = tree.declarations
    | .error _ => root.info.flagged = true ∧ tolerate = false := by
  have built := lexical_iff_build src path root
  cases flagged : root.info.flagged with
  | false => simpa [SourceTree.ofCst, flagged] using built
  | true =>
      cases tolerate with
      | false => simp [SourceTree.ofCst, flagged]
      | true => simpa [SourceTree.ofCst, flagged] using built

end TestRoster.Go
