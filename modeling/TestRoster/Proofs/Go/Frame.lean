import TestRoster.Proofs.Go.Lexical
import TestRoster.Proofs.Go.Reading

/-!
Scopes as layers of bindings.

A frame holds the bindings of a layer, the latest first, so looking a name up finds what the layers
tell. A block that threads its scope gives the same nodes as steps of which each is looked at on its
own, among the bindings of the steps before it.
-/
namespace TestRoster.Go

/-- The frames that hold the bindings of these layers. -/
def frames (ctx : List Layer) : Scope :=
  ctx.map List.reverse

namespace Layer

theorem lookup_reverse_eq_some {layer : Layer} {name : String} {d : Node} :
    List.lookup name layer.reverse = some d ↔
      ∃ before after : Layer, layer = before ++ (name, d) :: after ∧ ¬ after.Binds name := by
  rw [List.lookup_eq_some_iff]
  constructor
  · rintro ⟨xs, ys, split, other⟩
    refine ⟨ys.reverse, xs.reverse, ?_, ?_⟩
    · simpa using congrArg List.reverse split
    · rintro ⟨d', member⟩
      simpa using other _ (List.mem_reverse.mp member)
  · rintro ⟨before, after, rfl, latest⟩
    refine ⟨after.reverse, before.reverse, by simp, fun p member => ?_⟩
    have distinct : name ≠ p.1 := by
      rintro rfl
      exact latest ⟨p.2, List.mem_reverse.mp member⟩
    simpa using distinct

theorem lookup_reverse_eq_none {layer : Layer} {name : String} :
    List.lookup name layer.reverse = none ↔ ¬ layer.Binds name := by
  rw [List.lookup_eq_none_iff]
  constructor
  · rintro other ⟨d, member⟩
    simpa using other _ (List.mem_reverse.mpr member)
  · intro unbound p member
    have distinct : name ≠ p.1 := by
      rintro rfl
      exact unbound ⟨p.2, List.mem_reverse.mp member⟩
    simpa using distinct

end Layer

theorem lookup_frames_eq_some {ctx : List Layer} {name : String} {d : Node} :
    (frames ctx).lookup name = some d ↔ Finds ctx name d := by
  induction ctx with
  | nil =>
      constructor
      · intro h
        cases h
      · intro h
        cases h
  | cons layer outer ih =>
      have first : (frames (layer :: outer)).lookup name =
          (List.lookup name layer.reverse).or ((frames outer).lookup name) := by
        simp only [frames, Scope.lookup, List.map_cons, List.findSome?_cons]
        cases List.lookup name layer.reverse <;> rfl
      rw [first]
      constructor
      · intro h
        cases hl : List.lookup name layer.reverse with
        | none =>
            rw [hl] at h
            exact .outwards (Layer.lookup_reverse_eq_none.mp hl) (ih.mp h)
        | some d' =>
            rw [hl] at h
            obtain rfl := Option.some.inj h
            obtain ⟨before, after, rfl, latest⟩ := Layer.lookup_reverse_eq_some.mp hl
            exact .here latest
      · intro h
        cases h with
        | here latest =>
            rw [Layer.lookup_reverse_eq_some.mpr ⟨_, _, rfl, latest⟩]
            rfl
        | outwards unbound h =>
            rw [Layer.lookup_reverse_eq_none.mpr unbound]
            exact ih.mpr h

theorem lookup_frames_eq_none {ctx : List Layer} {name : String} :
    (frames ctx).lookup name = none ↔ ∀ layer ∈ ctx, ¬ layer.Binds name := by
  simp only [frames, Scope.lookup, List.findSome?_eq_none_iff, List.mem_map,
    forall_exists_index, and_imp, forall_apply_eq_imp_iff₂, Layer.lookup_reverse_eq_none]

namespace Layer

theorem ofNames_append (xs ys : List String) (d : Node) :
    ofNames (xs ++ ys) d = ofNames xs d ++ ofNames ys d := by
  simp [ofNames]

theorem bind_frames (name : String) (d : Node) (layer : Layer) (ctx : List Layer) :
    (frames (layer :: ctx)).bind d name = frames ((layer ++ ofNames [name] d) :: ctx) := by
  by_cases blank : name = "" ∨ name = "_"
  · rcases blank with rfl | rfl <;> simp [Scope.bind, ofNames]
  · simp [Scope.bind, ofNames, not_or.mp blank, frames]

/-- Names are bound behind what the innermost layer holds. -/
theorem bindAll_frames (names : List String) (d : Node) (layer : Layer) (ctx : List Layer) :
    (frames (layer :: ctx)).bindAll names d = frames ((layer ++ ofNames names d) :: ctx) := by
  induction names generalizing layer with
  | nil => simp [Scope.bindAll, ofNames]
  | cons name rest ih =>
      have again : (frames (layer :: ctx)).bindAll (name :: rest) d =
          ((frames (layer :: ctx)).bind d name).bindAll rest d := rfl
      rw [again, bind_frames, ih, List.append_assoc, ← ofNames_append]
      rfl

theorem bindDeclared_frames (src : Source) (ns : List Cst) (text : String) (layer : Layer)
    (ctx : List Layer) :
    Scope.bindParameters (ns.map fun n => ⟨n.line src, n.text src, text⟩)
        (frames (layer :: ctx)) =
      frames ((layer ++ ns.flatMap fun n =>
        ofNames [n.text src] (.other (n.line src) (.str "parameter") (.str text))) :: ctx) := by
  induction ns generalizing layer with
  | nil => simp [Scope.bindParameters]
  | cons n rest ih =>
      rw [List.flatMap_cons, ← List.append_assoc, ← ih, ← bind_frames]
      rfl

theorem bindParameters_frames (src : Source) (parameters : List Cst) (layer : Layer)
    (ctx : List Layer) :
    Scope.bindParameters (parameters.flatMap (Cst.declared src)) (frames (layer :: ctx)) =
      frames ((layer ++ ofParameters src parameters) :: ctx) := by
  induction parameters generalizing layer with
  | nil => simp [Scope.bindParameters, ofParameters]
  | cons p rest ih =>
      have first := bindDeclared_frames src (p.allAt "name") (p.text src) layer ctx
      rw [ofParameters, List.flatMap_cons, List.flatMap_cons, ← List.append_assoc]
      rw [Scope.bindParameters, List.foldl_append]
      change Scope.bindParameters _ (Scope.bindParameters (p.declared src) _) = _
      rw [Cst.declared, first, ih]
      rfl

end Layer

/-- The node that the builder makes of a part among these layers. -/
def Part.node (src : Source) (ctx : List Layer) : Part → Node
  | .place c => ((c.map (Cst.expr src)).getD .absent).node (frames ctx)
  | .expression c => (c.expr src).node (frames ctx)
  | .element c => (c.elem src).node (frames ctx)
  | .range k =>
      bindingNode (k.line src) (k.namesAt src)
        ((k.at? "right").toList.map fun r => (r.expr src).node (frames ctx.tail)) true
  | .declaration c => (c.func src).node (frames ctx)
  | s => ((s.stmt src).node (frames ctx)).1

/-- The scope behind a step holds what the step binds. -/
theorem Part.scope_node (src : Source) {s : Part} (h : s.isStep) (layer : Layer)
    (ctx : List Layer) :
    ((s.stmt src).node (frames (layer :: ctx))).2 =
      frames ((layer ++ s.made src (s.node src (layer :: ctx))) :: ctx) := by
  cases s with
  | expression c => simp [Part.stmt, Stmt.node, Part.made]
  | binding site names values => exact Layer.bindAll_frames names _ layer ctx
  | loop c => simp [Part.stmt, Stmt.node, Part.made]
  | kept c => simp [Part.stmt, Stmt.node, Part.made]
  | place | element | range | declaration => cases h

theorem Part.stmt_node (src : Source) {s : Part} (h : s.isStep) (ctx : List Layer) :
    ((s.stmt src).node (frames ctx)).1 = s.node src ctx := by
  cases s with
  | expression | binding | loop | kept => rfl
  | place | element | range | declaration => cases h

namespace Layer

variable (src : Source) (f : Layer → Part → Node)

/-- The nodes of steps, each made among the bindings of the steps before it. -/
def run (initial : Layer) : List Part → List Node
  | [] => []
  | s :: rest => f initial s :: run (initial ++ s.made src (f initial s)) rest

theorem made_cons (s : Part) (steps : List Part) (n : Node) (nodes : List Node) :
    made src (s :: steps) (n :: nodes) = s.made src n ++ made src steps nodes := by
  simp [made]

theorem run_append (initial : Layer) (xs ys : List Part) :
    run src f initial (xs ++ ys) =
      run src f initial xs ++ run src f (initial ++ made src xs (run src f initial xs)) ys := by
  induction xs generalizing initial with
  | nil => simp [run, made]
  | cons s rest ih => simp [run, ih, made]

theorem length_run (initial : Layer) (steps : List Part) :
    (run src f initial steps).length = steps.length := by
  induction steps generalizing initial with
  | nil => rfl
  | cons s rest ih => simp [run, ih]

/-- A run is told by each of its steps: it sees the bindings of the steps before it. -/
theorem eq_run_iff (initial : Layer) (steps : List Part) (nodes : List Node) :
    nodes = run src f initial steps ↔
      nodes.length = steps.length ∧
      ∀ (i : Nat) s n, steps[i]? = some s → nodes[i]? = some n →
        n = f (initial ++ made src (steps.take i) (nodes.take i)) s := by
  induction steps generalizing initial nodes with
  | nil => simp [run]
  | cons s rest ih =>
      cases nodes with
      | nil => simp [run]
      | cons n ns =>
          rw [run, List.cons.injEq]
          constructor
          · rintro ⟨rfl, later⟩
            obtain ⟨count, each⟩ := (ih _ ns).mp later
            refine ⟨congrArg (· + 1) count, fun i s' n' hs hn => ?_⟩
            cases i with
            | zero =>
                obtain rfl := Option.some.inj hs
                obtain rfl := Option.some.inj hn
                exact congrArg (f · s) (List.append_nil initial).symm
            | succ i =>
                simpa only [List.take_succ_cons, made_cons, ← List.append_assoc] using
                  each i s' n' hs hn
          · rintro ⟨count, each⟩
            have first : n = f initial s := by
              simpa [made] using each 0 s n rfl rfl
            refine ⟨first, ?_⟩
            rw [← first]
            refine (ih _ ns).mpr ⟨Nat.succ.inj count, fun i s' n' hs hn => ?_⟩
            simpa only [List.take_succ_cons, made_cons, ← List.append_assoc] using
              each (i + 1) s' n' hs hn

/-- A block of statements is a run of its steps. -/
theorem nodes_eq_run (ctx : List Layer) (initial : Layer) {steps : List Part}
    (h : ∀ s ∈ steps, s.isStep) :
    Stmt.nodes (frames (initial :: ctx)) (steps.map (Part.stmt src)) =
      run src (fun layer s => s.node src (layer :: ctx)) initial steps := by
  induction steps generalizing initial with
  | nil => rfl
  | cons s rest ih =>
      have scope := Part.scope_node src (h s (.head _)) initial ctx
      have node := Part.stmt_node src (h s (.head _)) (initial :: ctx)
      rw [List.map_cons, Stmt.nodes, run]
      simp only [scope, node]
      rw [ih _ fun s' h' => h s' (.tail _ h')]

end Layer

/-- Whether a part can stand in a loop's header. -/
def Part.isHeader : Part → Bool
  | .range _ => true
  | s => s.isStep

theorem Cst.isHeader_of_mem_header {src : Source} {c : Cst} {s : Part} (h : s ∈ c.header src) :
    s.isHeader := by
  obtain ⟨k, -, h⟩ := List.mem_flatMap.mp h
  split at h
  · obtain rfl := List.mem_singleton.mp h
    rfl
  · split at h
    · cases hk : k.at? "initializer" with
      | none => simp [hk] at h
      | some statement =>
          rw [hk] at h
          have step := Cst.isStep_of_mem_steps h
          cases s with
          | expression | binding | loop | kept => rfl
          | place | element | range | declaration => cases step
    · cases h

namespace Layer

variable (src : Source)

/-- A range clause makes its binding in the loop, of a source that is looked up outside. -/
theorem header_range (ctx : List Layer) (layer : Layer) (source : Node) (k : Cst)
    (rest : List Clause) :
    ∃ ranged, (Part.range k).rangesOver? ((Part.range k).node src (layer :: ctx)) = some ranged ∧
      Clause.header (frames ctx) (frames (layer :: ctx)) source
          ((Part.range k).clause src :: rest) =
        Clause.header (frames ctx)
          (frames ((layer ++ (Part.range k).made src ((Part.range k).node src (layer :: ctx))) ::
            ctx)) ranged rest := by
  have bound (d : Node) :
      (if k.declares then (frames (layer :: ctx)).bindAll (k.namesAt src) d
        else frames (layer :: ctx)) =
        frames ((layer ++ (Part.range k).made src d) :: ctx) := by
    rw [Part.made]
    split
    · exact bindAll_frames _ d layer ctx
    · rw [List.append_nil]
  rw [Part.clause]
  cases hr : k.at? "right" with
  | none =>
      have node : (Part.range k).node src (layer :: ctx) =
          bindingNode (k.line src) (k.namesAt src) [] true := by
        simp [Part.node, hr]
      refine ⟨.null, by rw [node]; rfl, ?_⟩
      rw [Option.map_none, Option.getD_none, Clause.header, bound, node]
      rfl
  | some r =>
      have node : (Part.range k).node src (layer :: ctx) =
          bindingNode (k.line src) (k.namesAt src) [(r.expr src).node (frames ctx)] true := by
        simp [Part.node, hr]
      refine ⟨(r.expr src).node (frames ctx), by rw [node]; rfl, ?_⟩
      rw [Option.map_some, Option.getD_some, Clause.header, bound, node]
      exact Reading.expr_ne_absent src r

/-- A header is a run of its steps. Of several range clauses the last one tells the source. -/
theorem header_eq_run (ctx : List Layer) (initial : Layer) (source : Node) {steps : List Part}
    (h : ∀ s ∈ steps, s.isHeader) :
    Clause.header (frames ctx) (frames (initial :: ctx)) source (steps.map (Part.clause src)) =
      (((steps.zip (run src (fun layer s => s.node src (layer :: ctx)) initial steps)).filterMap
          fun s => s.1.rangesOver? s.2).getLast?.getD source,
        frames ((initial ++ made src steps
          (run src (fun layer s => s.node src (layer :: ctx)) initial steps)) :: ctx)) := by
  induction steps generalizing initial source with
  | nil => simp [Clause.header, run, made]
  | cons s rest ih =>
      have later (initial : Layer) (source : Node) :=
        ih initial source fun s' h' => h s' (.tail _ h')
      rw [List.map_cons, run, List.zip_cons_cons, made_cons, ← List.append_assoc,
        List.filterMap_cons]
      by_cases step : s.isStep
      · have silent (n : Node) : s.rangesOver? n = none := by
          cases s with
          | expression | binding | loop | kept => rfl
          | place | element | range | declaration => cases step
        rw [Part.clause_of_isStep step, Clause.header, Part.scope_node src step, later, silent]
      · cases s with
        | range k =>
            obtain ⟨ranged, found, same⟩ :=
              header_range src ctx initial source k (rest.map (Part.clause src))
            rw [same, later]
            simp only [found, List.getLast?_cons, Option.getD_some]
        | expression | binding | loop | kept => exact absurd rfl step
        | place | element | declaration => cases h _ (.head _)

end Layer

end TestRoster.Go
