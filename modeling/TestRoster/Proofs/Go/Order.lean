import TestRoster.Discovery.File
import TestRoster.Proofs.Go.Coincidence
import TestRoster.Proofs.Go.Reading

/-!
The order of package-level declarations.

Package-level values are converted in one pass, each in the scope of those before it. So two
declarations can change places if neither mentions a name that the other one binds, and functions,
which are converted last, do not notice. A declaration that is moved in front of one whose names it
mentions no longer finds them.
-/
namespace TestRoster.Go

namespace Cst

variable (src : Source)

def isValue (c : Cst) : Bool :=
  c.info.isNamed && (c.info.kind == "var_declaration" || c.info.kind == "const_declaration")

def values (root : Cst) : List Cst :=
  root.children.filter isValue

/-- What stands in a file besides declarations of values. -/
def others (root : Cst) : List Cst :=
  root.children.filter fun c => !c.isValue

def mentioned (c : Cst) : List String :=
  Stmt.mentionedAmong (c.stmts src)

def bound (c : Cst) : List String :=
  (c.stmts src).flatMap Stmt.bound

/-- That one of two declarations mentions a name that the other one binds. -/
def Related (c d : Cst) : Prop :=
  (∃ name ∈ c.mentioned src, name ∈ d.bound src) ∨ ∃ name ∈ d.mentioned src, name ∈ c.bound src

instance (c d : Cst) : Decidable (c.Related src d) :=
  inferInstanceAs (Decidable (_ ∨ _))

/-- That a file is another one with its declarations of values in another order. -/
structure Reordered (root reordered : Cst) : Prop where
  info : reordered.info = root.info
  others : reordered.others = root.others
  values : root.values.Perm reordered.values

def after (scope : Scope) (c : Cst) : Scope :=
  (c.stmts src).foldl (fun scope s => (s.node scope).2) scope

end Cst

namespace Scope

variable {names : List String} {scope scope' scope'' : Scope}

theorem Agree.symm (h : Agree names scope scope') : Agree names scope' scope :=
  fun name member => (h name member).symm

theorem Agree.trans (h : Agree names scope scope') (h' : Agree names scope' scope'') :
    Agree names scope scope'' :=
  fun name member => (h name member).trans (h' name member)

theorem lookup_block (ss : List Stmt) (scope : Scope) {name : String}
    (unbound : name ∉ ss.flatMap Stmt.bound) :
    (ss.foldl (fun scope s => (s.node scope).2) scope).lookup name = scope.lookup name := by
  induction ss generalizing scope with
  | nil => rfl
  | cons s rest ih =>
      rw [List.flatMap_cons, List.mem_append, not_or] at unbound
      rw [List.foldl_cons, ih _ unbound.2, s.lookup_node, if_neg unbound.1]

theorem Agree.block (h : Agree names scope scope') {ss : List Stmt}
    (mentioned : Stmt.mentionedAmong ss ⊆ names) :
    Agree (ss.flatMap Stmt.bound ++ names)
      (ss.foldl (fun scope s => (s.node scope).2) scope)
      (ss.foldl (fun scope s => (s.node scope).2) scope') := by
  induction ss generalizing names scope scope' with
  | nil => exact h
  | cons s rest ih =>
      obtain ⟨first, later⟩ := List.append_subset.mp mentioned
      have one := h.after (statement_eq_of_agree h s first)
      have all := ih one (List.Subset.trans later (List.subset_append_right ..))
      refine all.mono fun name member => ?_
      rw [List.flatMap_cons, List.append_assoc, List.mem_append, List.mem_append] at member
      rw [List.mem_append, List.mem_append]
      exact or_left_comm.mp member

end Scope

section

variable {src : Source} {names : List String}

theorem Cst.Related.symm {c d : Cst} (h : c.Related src d) : d.Related src c :=
  Or.symm h

open Scope

/-- Two scopes that agree do so after the same declarations. -/
theorem agree_foldl_after {ds : List Cst} (mentioned : ∀ d ∈ ds, d.mentioned src ⊆ names)
    {scope scope' : Scope} (h : Agree names scope scope') :
    Agree names (ds.foldl (Cst.after src) scope) (ds.foldl (Cst.after src) scope') := by
  induction ds generalizing scope scope' with
  | nil => exact h
  | cons d rest ih =>
      obtain ⟨first, later⟩ := List.forall_mem_cons.mp mentioned
      exact ih later ((h.block first).mono (List.subset_append_right ..))

/-- What a declaration binds is the same after an unrelated one. -/
theorem lookup_swap {c d : Cst} (unrelated : ¬ c.Related src d) (scope : Scope) {name : String}
    (unbound : name ∉ d.bound src) :
    (Cst.after src (Cst.after src scope c) d).lookup name =
      (Cst.after src (Cst.after src scope d) c).lookup name := by
  have before : Agree (c.mentioned src) scope (Cst.after src scope d) := fun x mentioned =>
    (lookup_block _ scope fun bound => unrelated (.inl ⟨x, mentioned, bound⟩)).symm
  calc (Cst.after src (Cst.after src scope c) d).lookup name
      = (Cst.after src scope c).lookup name := lookup_block _ _ unbound
    _ = (Cst.after src (Cst.after src scope d) c).lookup name := by
        by_cases bound : name ∈ c.bound src
        · exact before.block (List.Subset.refl _) name (List.mem_append_left _ bound)
        · calc (Cst.after src scope c).lookup name
              = scope.lookup name := lookup_block _ _ bound
            _ = (Cst.after src scope d).lookup name := (lookup_block _ _ unbound).symm
            _ = (Cst.after src (Cst.after src scope d) c).lookup name :=
              (lookup_block _ _ bound).symm

/-- Unrelated declarations that bind different names can change places. -/
theorem agree_swap {c d : Cst} (unrelated : ¬ c.Related src d)
    (distinct : ∀ name ∈ names, name ∈ c.bound src → name ∉ d.bound src) (scope : Scope) :
    Agree names (Cst.after src (Cst.after src scope c) d)
      (Cst.after src (Cst.after src scope d) c) := by
  intro name member
  by_cases bound : name ∈ d.bound src
  · have unbound : name ∉ c.bound src := fun h => distinct name member h bound
    exact (lookup_swap (fun h => unrelated h.symm) scope unbound).symm
  · exact lookup_swap unrelated scope bound

/-- A declaration can move in front of those that it is unrelated to, by induction on these. -/
theorem agree_move {d : Cst} {cs : List Cst} (unrelated : ∀ c ∈ cs, ¬ c.Related src d)
    (distinct : ∀ c ∈ cs, ∀ name ∈ names, name ∈ c.bound src → name ∉ d.bound src)
    (mentioned : ∀ c ∈ cs, c.mentioned src ⊆ names) (scope : Scope) :
    Agree names ((cs ++ [d]).foldl (Cst.after src) scope)
      ((d :: cs).foldl (Cst.after src) scope) := by
  induction cs generalizing scope with
  | nil => exact fun _ _ => rfl
  | cons c rest ih =>
      have apart := List.forall_mem_cons.mp unrelated
      have different := List.forall_mem_cons.mp distinct
      have later := (List.forall_mem_cons.mp mentioned).2
      have moved := ih apart.2 different.2 later (Cst.after src scope c)
      exact moved.trans (agree_foldl_after later (agree_swap apart.1 different.1 scope))

/-- Declarations in two orders, by induction on the first order. Its first declaration moves to the
front of the second order; whatever it passes there comes behind it in the first. -/
theorem agree_of_perm {ds ds' : List Cst} (perm : ds.Perm ds')
    (mentioned : ∀ d ∈ ds, d.mentioned src ⊆ names)
    (distinct : ds.Pairwise fun c d => ∀ name ∈ names, name ∈ c.bound src → name ∉ d.bound src)
    (kept : ∀ c d, [c, d].Sublist ds → [d, c].Sublist ds' → ¬ c.Related src d) (scope : Scope) :
    Agree names (ds.foldl (Cst.after src) scope) (ds'.foldl (Cst.after src) scope) := by
  induction ds generalizing ds' scope with
  | nil =>
      rw [perm.nil_eq]
      exact fun _ _ => rfl
  | cons d rest ih =>
      obtain ⟨front, back, rfl⟩ := List.append_of_mem (perm.subset List.mem_cons_self)
      have remaining : rest.Perm (front ++ back) := (perm.trans List.perm_middle).cons_inv
      obtain ⟨different, distinct⟩ := List.pairwise_cons.mp distinct
      have later := (List.forall_mem_cons.mp mentioned).2
      have passed {c : Cst} (hc : c ∈ front) : c ∈ rest :=
        remaining.symm.subset (List.mem_append_left _ hc)
      have moved : Agree names ((front ++ [d]).foldl (Cst.after src) scope)
          ((d :: front).foldl (Cst.after src) scope) := by
        refine agree_move (fun c hc related => ?_) (fun c hc name member bound bound' => ?_)
          (fun c hc => later c (passed hc)) scope
        · -- `d` is first on the left, so the two have changed places
          have first : [d, c].Sublist (d :: rest) :=
            (List.singleton_sublist.mpr (passed hc)).cons_cons d
          have second : [c, d].Sublist (front ++ d :: back) :=
            (List.singleton_sublist.mpr hc).append
              (List.singleton_sublist.mpr List.mem_cons_self)
          exact kept d c first second related.symm
        · exact different c (passed hc) name member bound' bound
      have behind : ∀ c ∈ back, c.mentioned src ⊆ names := fun c hc =>
        later c (remaining.symm.subset (List.mem_append_right _ hc))
      have rejoined := agree_foldl_after behind moved
      have inherited := ih remaining later distinct (fun c e first second => kept c e
        (first.cons d) (second.trans ((List.Sublist.refl _).append (List.sublist_cons_self ..))))
        (Cst.after src scope d)
      rw [List.foldl_append] at inherited
      rw [← List.foldl_append, List.append_assoc] at rejoined
      exact inherited.trans rejoined.symm

end

def File.mentioned (file : File) : List String :=
  Stmt.mentionedAmong file.bindings ++ file.functions.flatMap fun f => Stmt.mentionedAmong f.body

/-- That no name which a file mentions is bound by two declarations. -/
def Cst.BoundOnce (src : Source) (root : Cst) : Prop :=
  root.values.Pairwise fun c d =>
    ∀ name ∈ (File.ofCst src root).mentioned, name ∈ c.bound src → name ∉ d.bound src

theorem flatMap_ite {α β : Type} (p : α → Bool) (f : α → List β) (xs : List α) :
    xs.flatMap (fun x => if p x then f x else []) = (xs.filter p).flatMap f := by
  induction xs with
  | nil => rfl
  | cons x rest ih =>
      rw [List.flatMap_cons, List.filter_cons, ih]
      split <;> simp

/-- The bindings of a file come from its declarations of values. -/
theorem bindings_ofCst (src : Source) (root : Cst) :
    (File.ofCst src root).bindings = root.values.flatMap (Cst.stmts src) := by
  have values : root.values = root.parts.filter fun c =>
      c.info.kind == "var_declaration" || c.info.kind == "const_declaration" := by
    rw [Cst.parts, List.filter_filter]
    exact List.filter_congr fun c _ => Bool.and_comm ..
  rw [values, ← flatMap_ite, File.ofCst_eq, Cst.packageSteps, List.map_flatMap]
  dsimp only
  congr 1
  funext c
  rw [Reading.stmts_eq]
  split
  next kind =>
    have steps : c.steps src = c.specs.map (Cst.specStep src) := by
      rcases Bool.or_eq_true_iff.mp kind with kind | kind <;>
        simp [Cst.steps, eq_of_beq kind]
    rw [steps]
  next => rfl

/-- The functions of a file come from what stands besides. -/
theorem functions_ofCst (src : Source) (root : Cst) :
    (File.ofCst src root).functions = (root.others.filter fun c => c.info.isNamed &&
      (c.info.kind == "function_declaration" || c.info.kind == "method_declaration")).map
        (Cst.func src) := by
  have functions : root.functions = root.others.filter fun c => c.info.isNamed &&
      (c.info.kind == "function_declaration" || c.info.kind == "method_declaration") := by
    rw [Cst.functions, Cst.parts, Cst.others, List.filter_filter, List.filter_filter]
    refine List.filter_congr fun c _ => ?_
    by_cases plain : c.info.kind = "function_declaration"
    · simp [Cst.isValue, plain]
    · by_cases method : c.info.kind = "method_declaration"
      · simp [Cst.isValue, method]
      · simp [beq_false_of_ne plain, beq_false_of_ne method]
  rw [File.ofCst_eq, functions]

theorem scope_ofCst (src : Source) (root : Cst) :
    (File.ofCst src root).scope = root.values.foldl (Cst.after src) [[]] := by
  rw [File.scope, bindings_ofCst, List.foldl_flatMap]
  rfl

theorem Cst.mentioned_subset (src : Source) {root c : Cst} (h : c ∈ root.values) :
    c.mentioned src ⊆ (File.ofCst src root).mentioned := by
  intro name member
  refine List.mem_append_left _ ?_
  rw [Cst.mentioned, Stmt.mentionedAmong_eq_flatMap] at member
  rw [bindings_ofCst, Stmt.mentionedAmong_eq_flatMap, List.flatMap_assoc]
  exact List.mem_flatMap.mpr ⟨c, h, member⟩

namespace Cst.Reordered

variable {src : Source} {root reordered : Cst} (h : root.Reordered reordered)
  (distinct : root.BoundOnce src)
  (kept : ∀ c d, [c, d].Sublist root.values → [d, c].Sublist reordered.values →
    ¬ c.Related src d)

include h distinct kept

/-- A function is converted alike after the declarations in either order. -/
theorem declarations_eq :
    (File.ofCst src reordered).declarations = (File.ofCst src root).declarations := by
  have agree := agree_of_perm h.values (fun c hc => Cst.mentioned_subset src hc) distinct kept [[]]
  rw [← scope_ofCst, ← scope_ofCst] at agree
  have functions : (File.ofCst src reordered).functions = (File.ofCst src root).functions := by
    rw [functions_ofCst, functions_ofCst, h.others]
  rw [File.declarations, File.declarations, functions]
  refine List.map_congr_left fun f hf => ?_
  have body : Stmt.mentionedAmong f.body ⊆ (File.ofCst src root).mentioned := fun name member =>
    List.mem_append_right _ (List.mem_flatMap.mpr ⟨f, hf, member⟩)
  rw [Function.node, Function.node,
    block_eq_of_agree (agree.push.bindParameters f.parameters) f.body body]

end Cst.Reordered

end TestRoster.Go

namespace TestRoster

/-- The order of package-level declarations matters between related ones alone. If no name is bound
twice and no declaration has changed places with one that mentions what it binds or binds what it
mentions, discovery finds the same. -/
theorem order_matters_only_between_related (cfg : Config) (mode : Mode) (src : Go.Source)
    (path : String) {root reordered : Go.Cst} (h : root.Reordered reordered)
    (distinct : root.BoundOnce src)
    (kept : ∀ c d, [c, d].Sublist root.values → [d, c].Sublist reordered.values →
      ¬ c.Related src d) (found : Discovery) :
    (FileOutcome.ofCst cfg mode src path reordered).result = .ok found ↔
      (FileOutcome.ofCst cfg mode src path root).result = .ok found := by
  have build : SourceTree.build src path reordered = SourceTree.build src path root := by
    rw [SourceTree.build, SourceTree.build, h.declarations_eq distinct kept]
  unfold FileOutcome.ofCst SourceTree.ofCst
  rw [h.info, build]
  cases root.info.flagged with
  | false => rfl
  | true =>
      cases cfg.tolerateSyntaxErrors with
      | true => rfl
      | false => simp [FileOutcome.ofParsed]

/-- The texts of a test that launches a subtest under a package-level name. -/
def orderSource : Go.Source :=
  Go.Source.ofString "TestXnm\x60a\x60t.Run"

/-- A declaration of a name, the text at `start`, with a value. -/
def orderDeclaration (start : Nat) (value : Go.Cst) : Go.Cst :=
  .node ⟨"var_declaration", start, 10, none, false, false, false⟩
    [.node ⟨"var_spec", start, 10, none, false, false, false⟩
      [.node ⟨"identifier", start, start + 1, some "name", false, false, false⟩ [],
        .node ⟨"expression_list", 7, 10, some "value", false, false, false⟩ [value]]]

def orderText : Go.Cst :=
  .node ⟨"raw_string_literal", 7, 10, none, false, false, false⟩ []

def orderName (start : Nat) : Go.Cst :=
  .node ⟨"identifier", start, start + 1, none, false, false, false⟩ []

/-- A file of two declarations and a test that launches a subtest under the second name. -/
def orderFile (first second : Go.Cst) : Go.Cst :=
  let callee : Go.Cst :=
    .node ⟨"selector_expression", 10, 15, some "function", false, false, false⟩
      [.node ⟨"field_identifier", 12, 15, some "field", false, false, false⟩ []]
  let launch : Go.Cst := .node ⟨"call_expression", 10, 15, none, false, false, false⟩
    [callee, .node ⟨"argument_list", 6, 7, some "arguments", false, false, false⟩ [orderName 6]]
  .node ⟨"source_file", 0, 15, none, false, false, false⟩
    [first, second, .node ⟨"function_declaration", 0, 15, none, false, false, false⟩
      [.node ⟨"identifier", 0, 5, some "name", false, false, false⟩ [],
        .node ⟨"block", 10, 15, some "body", false, false, false⟩
          [.node ⟨"expression_statement", 10, 15, none, false, false, false⟩ [launch]]]]

def orderTests (root : Go.Cst) : Option (List String) :=
  (FileOutcome.ofCst {} .tests orderSource "a_test.go" root).result.toOption.map fun found =>
    found.tests.map TestCase.name

/-- Two names with a text each. -/
theorem order_of_texts_never_matters :
    let n := orderDeclaration 5 orderText
    let m := orderDeclaration 6 orderText
    (orderFile n m).Reordered (orderFile m n) ∧ (orderFile n m).BoundOnce orderSource ∧
      (∀ c d, [c, d].Sublist (orderFile n m).values → [d, c].Sublist (orderFile m n).values →
        ¬ c.Related orderSource d) ∧
      orderTests (orderFile m n) = some ["TestX", "TestX/a"] := by
  intro n m
  have h : (orderFile n m).Reordered (orderFile m n) := ⟨rfl, rfl, .swap m n []⟩
  have distinct : (orderFile n m).BoundOnce orderSource := by
    refine List.pairwise_pair.mpr ?_
    decide +kernel
  have kept (c d : Go.Cst) (before : [c, d].Sublist (orderFile n m).values)
      (_ : [d, c].Sublist (orderFile m n).values) : ¬ c.Related orderSource d := by
    have both : [c, d] = [n, m] := before.eq_of_length rfl
    obtain ⟨rfl, rfl⟩ : c = n ∧ d = m := by simpa using both
    decide +kernel
  have told : orderTests (orderFile n m) = some ["TestX", "TestX/a"] := by decide +kernel
  refine ⟨h, distinct, kept, ?_⟩
  cases found : (FileOutcome.ofCst {} .tests orderSource "a_test.go" (orderFile n m)).result with
  | error failure =>
      rw [orderTests, found] at told
      cases told
  | ok discovery =>
      have same := (order_matters_only_between_related {} .tests orderSource "a_test.go" h distinct
        kept discovery).mpr found
      rw [orderTests, found] at told
      rw [orderTests, same]
      exact told

/-- A name that is bound to another name leads to a text, but not if it is declared first. -/
theorem name_declared_before_its_value_is_not_found :
    let n := orderDeclaration 5 orderText
    let m := orderDeclaration 6 (orderName 5)
    (orderFile n m).Reordered (orderFile m n) ∧
      ((orderFile n m).values.flatMap (Go.Cst.bound orderSource)).Nodup ∧
      orderTests (orderFile n m) = some ["TestX", "TestX/a"] ∧
      orderTests (orderFile m n) = some ["TestX"] := by
  intro n m
  refine ⟨⟨rfl, rfl, .swap m n []⟩, ?_, ?_, ?_⟩ <;> decide +kernel

end TestRoster
