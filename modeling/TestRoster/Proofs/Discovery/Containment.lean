import TestRoster.Proofs.Discovery.Strictness

/-!
Tolerant discovery is compositional.

Accounts of statements and contributions of entries are concatenations, so whatever stands between
two parts of a list, the parts give what they give alone. The root of an entry comes before anything
that its body is read for.
-/
namespace TestRoster

open Finding

namespace Node

theorem eachFindings_append (cfg : Config) (parent : String) (xs ys : List Node) :
    eachFindings cfg parent (xs ++ ys) =
      eachFindings cfg parent xs ++ eachFindings cfg parent ys := by
  induction xs with
  | nil =>
      rw [List.nil_append, eachFindings, List.nil_append]
  | cons statement rest ih =>
      rw [List.cons_append, eachFindings, eachFindings, ih, List.append_assoc]

/-- Tolerant resolution ends with what the account tells. -/
theorem resolve_tolerant (cfg : Config) (parent : String) (body : Sequence) :
    (resolve (cfg.withStrict false) parent body).result =
      .ok (.ofFindings (bodyFindings cfg parent body)) := by
  rw [resolve_eq, bodyFindings_withStrict]
  rfl

theorem resolve_tolerant_append (cfg : Config) (parent : String) (xs ys : List Node) :
    (resolve (cfg.withStrict false) parent (.nodes (xs ++ ys))).result =
      .ok ((Resolution.ofFindings (bodyFindings cfg parent (.nodes xs))).extend
        (.ofFindings (bodyFindings cfg parent (.nodes ys)))) := by
  rw [resolve_tolerant, ← Resolution.ofFindings_append]
  simp only [bodyFindings, eachFindings_append]

end Node

namespace Discovery

theorem ofDeclarations_tolerant (cfg : Config) (mode : Mode) (path : String)
    (declarations : List Node) :
    (ofDeclarations (cfg.withStrict false) mode path declarations).result =
      .ok (Entry.contributions cfg mode path (Entry.classify cfg mode declarations)) := by
  rw [ofDeclarations_eq, Entry.contributions_withStrict]
  rfl

end Discovery

namespace Entry

theorem classify_append (cfg : Config) (mode : Mode) (xs ys : List Node) :
    classify cfg mode (xs ++ ys) = classify cfg mode xs ++ classify cfg mode ys :=
  List.filterMap_append

/-- The names found in the body of an entry, as tests. -/
def subtests (cfg : Config) (mode : Mode) (path : String) (e : Entry) : List TestCase :=
  let told := Resolution.ofFindings (e.findings cfg mode)
  (told.names.zip told.lines).map fun n => ⟨n.1, path, n.2, false⟩

theorem contributions_eq_flatMap (cfg : Config) (mode : Mode) (path : String) (es : List Entry) :
    contributions cfg mode path es =
      { tests := es.flatMap fun e => e.root mode path :: e.subtests cfg mode path
        issues := es.flatMap fun e => (Resolution.ofFindings (e.findings cfg mode)).issues } := by
  induction es with
  | nil => rfl
  | cons e rest ih =>
      rw [contributions, ih]
      rfl

end Entry

/-- Whatever stands between two parts of a list, tolerant discovery gives for the whole list what
it gives for the parts, one after the other; and each entry is listed first, whatever its body
holds. -/
theorem tolerant_discovery_is_compositional (cfg : Config) :
    (∀ (parent : String) (xs : List Node) (s : Node) (ys : List Node), ∃ a b c,
      (Node.resolve (cfg.withStrict false) parent (.nodes xs)).result = .ok a ∧
      (Node.resolve (cfg.withStrict false) parent (.nodes [s])).result = .ok b ∧
      (Node.resolve (cfg.withStrict false) parent (.nodes ys)).result = .ok c ∧
      (Node.resolve (cfg.withStrict false) parent (.nodes (xs ++ [s] ++ ys))).result =
        .ok ⟨a.names ++ b.names ++ c.names, a.lines ++ b.lines ++ c.lines,
          a.issues ++ b.issues ++ c.issues⟩) ∧
    (∀ (mode : Mode) (path : String) (xs : List Node) (d : Node) (ys : List Node), ∃ a b c,
      (Discovery.ofDeclarations (cfg.withStrict false) mode path xs).result = .ok a ∧
      (Discovery.ofDeclarations (cfg.withStrict false) mode path [d]).result = .ok b ∧
      (Discovery.ofDeclarations (cfg.withStrict false) mode path ys).result = .ok c ∧
      (Discovery.ofDeclarations (cfg.withStrict false) mode path (xs ++ [d] ++ ys)).result =
        .ok ⟨a.tests ++ b.tests ++ c.tests, a.issues ++ b.issues ++ c.issues⟩) ∧
    ∀ (mode : Mode) (path : String), ∃ (subtests : Entry → List TestCase)
        (issues : Entry → List Issue), ∀ declarations : List Node,
      (Discovery.ofDeclarations (cfg.withStrict false) mode path declarations).result =
        .ok ⟨(Entry.classify cfg mode declarations).flatMap fun e =>
            e.root mode path :: subtests e,
          (Entry.classify cfg mode declarations).flatMap issues⟩ := by
  refine ⟨fun parent xs s ys => ?_, fun mode path xs d ys => ?_, fun mode path => ?_⟩
  · refine ⟨_, _, _, Node.resolve_tolerant cfg parent _, Node.resolve_tolerant cfg parent _,
      Node.resolve_tolerant cfg parent _, ?_⟩
    rw [Node.resolve_tolerant_append, Node.bodyFindings, Node.eachFindings_append,
      Resolution.ofFindings_append, Node.bodyFindings, Node.bodyFindings, Node.bodyFindings]
    rfl
  · refine ⟨_, _, _, Discovery.ofDeclarations_tolerant cfg mode path _,
      Discovery.ofDeclarations_tolerant cfg mode path _,
      Discovery.ofDeclarations_tolerant cfg mode path _, ?_⟩
    rw [Discovery.ofDeclarations_tolerant, Entry.classify_append, Entry.classify_append,
      Entry.contributions_append, Entry.contributions_append]
    rfl
  · refine ⟨Entry.subtests cfg mode path,
      fun e => (Resolution.ofFindings (e.findings cfg mode)).issues, fun declarations => ?_⟩
    rw [Discovery.ofDeclarations_tolerant, Entry.contributions_eq_flatMap]

end TestRoster
