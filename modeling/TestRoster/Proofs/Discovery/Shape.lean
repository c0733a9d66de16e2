import TestRoster.Proofs.Discovery.Search

/-!
Every fault of an account is an unexpected shape: containment names the node that it happened in,
and a fault that is contained at one level reaches the levels around it as it is.
-/
namespace TestRoster

namespace Finding

theorem shaped_singleton {f : Finding} (h : f.fault? = none) : Shaped [f] := by
  intro g hg cause hc
  obtain rfl := List.mem_singleton.mp hg
  rw [h] at hc
  cases hc

theorem shaped_name (text : String) (line : Int) : Shaped [.name text line] :=
  shaped_singleton rfl

theorem shaped_ambiguous (why : Ambiguity) (line : Int) : Shaped [.ambiguous why line] :=
  shaped_singleton rfl

theorem shaped_map {α : Type} {xs : List α} {g : α → Finding}
    (h : ∀ x ∈ xs, Shaped [g x]) : Shaped (xs.map g) := by
  intro f hf
  obtain ⟨x, hx, rfl⟩ := List.mem_map.mp hf
  exact h x hx (g x) (by simp)

theorem Shaped.withoutNames {fs : List Finding} (h : Shaped fs) : Shaped (withoutNames fs) :=
  fun f hf => h f ((List.mem_filter.mp hf).1)

end Finding

namespace Node

open Finding

def ShapedAccount (r : Except Fault (List Finding)) : Prop :=
  ∀ fs, r = .ok fs → Shaped fs

theorem shapedAccount_ok {fs : List Finding} (h : Shaped fs) : ShapedAccount (.ok fs) := by
  intro gs same
  obtain rfl := Except.ok.inj same
  exact h

theorem shapedAccount_error (cause : Fault) : ShapedAccount (.error cause) := by
  intro fs h
  cases h

/-- A search that first reads the tree is shaped if what follows is. -/
theorem shapedAccount_bind {α : Type} (r : Except Fault α) {next : α → Except Fault (List Finding)}
    (h : ∀ a, ShapedAccount (next a)) : ShapedAccount (r >>= next) := by
  cases r with
  | error cause => exact shapedAccount_error cause
  | ok a => exact h a

theorem shapedAccount_map {r : Except Fault (List Finding)} {g : List Finding → List Finding}
    (h : ShapedAccount r) (hg : ∀ fs, Shaped fs → Shaped (g fs)) : ShapedAccount (r.map g) := by
  cases r with
  | error cause => exact shapedAccount_error cause
  | ok fs => exact shapedAccount_ok (hg fs (h fs rfl))

theorem shaped_nameFindings (cfg : Config) (argument : Node) :
    ShapedAccount (argument.nameFindings cfg) := by
  intro fs given f hf
  cases sought_nameFindings cfg argument fs given f hf with
  | name | ambiguous => exact fun cause h => nomatch h
  | element element cause => exact shaped_contained _ _ _ cause _ (List.mem_singleton.mpr rfl)

theorem shaped_unnamedFindings (cfg : Config) (parent : String) (line : Int) :
    Shaped (unnamedFindings cfg parent line) := by
  refine shaped_append.mpr ⟨?_, shaped_ambiguous _ _⟩
  split
  · exact shaped_singleton rfl
  · exact shaped_nil

theorem shaped_namedFindings (cfg : Config) (parent : String) (line : Int)
    {inside : String → List Finding} (hi : ∀ name, Shaped (inside name)) {fs : List Finding}
    (hfs : Shaped fs) : Shaped (namedFindings cfg parent line inside fs) := by
  refine shaped_append.mpr ⟨hfs.withoutNames, ?_⟩
  split
  · split
    · exact shaped_map fun issue _ => shaped_singleton rfl
    · exact shaped_nil
  · exact shaped_flatMap fun name _ =>
      shaped_append.mpr ⟨shaped_name _ line, hi (joinName parent name)⟩

theorem shaped_containedFindings (parent : String) (statement : Node)
    {r : Except Fault (List Finding)} (h : ShapedAccount r) :
    Shaped (containedFindings parent statement r) := by
  cases r with
  | error cause => exact shaped_contained _ _ _ cause
  | ok fs => exact h fs rfl

mutual

theorem shaped_bodyFindings (cfg : Config) (parent : String) (body : Sequence) :
    Shaped (bodyFindings cfg parent body) := by
  cases body with
  | nodes statements =>
      rw [bodyFindings]
      exact shaped_eachFindings cfg parent statements
  | lone n =>
      rw [bodyFindings]
      split
      · exact shaped_contained _ _ _ _
      · exact shaped_map fun part _ => shaped_contained _ _ _ _

theorem shaped_eachFindings (cfg : Config) (parent : String) (statements : List Node) :
    Shaped (eachFindings cfg parent statements) := by
  cases statements with
  | nil =>
      rw [eachFindings]
      exact shaped_nil
  | cons statement rest =>
      rw [eachFindings]
      exact shaped_append.mpr
        ⟨shaped_containedFindings parent statement (shaped_statementFindings cfg parent statement),
          shaped_eachFindings cfg parent rest⟩

theorem shaped_statementFindings (cfg : Config) (parent : String) (statement : Node) :
    ShapedAccount (statementFindings cfg parent statement) := by
  cases statement with
  | bare value => exact shapedAccount_error _
  | iteration line source body =>
      rw [statementFindings]
      exact shapedAccount_ok (shaped_bodyFindings cfg parent body)
  | invocation line callee arguments =>
      rw [statementFindings]
      split
      · exact shaped_launchFindings cfg parent line arguments
      · exact shapedAccount_ok shaped_nil
  | literal | identifier | memberAccess | indirection | keyedElement | positionalElement
  | compositeValue | assignment | closure | declaration | other =>
      exact shapedAccount_ok shaped_nil

theorem shaped_launchFindings (cfg : Config) (parent : String) (line : Int)
    (arguments : Sequence) : ShapedAccount (launchFindings cfg parent line arguments) := by
  match arguments with
  | .nodes [] => exact shapedAccount_ok (shaped_unnamedFindings cfg parent line)
  | .nodes (argument :: rest) =>
      rw [launchFindings]
      exact shapedAccount_map (shaped_nameFindings cfg argument) fun fs hfs =>
        shaped_namedFindings cfg parent line (fun name => shaped_functionFindings cfg name rest) hfs
  | .lone n =>
      rw [launchFindings]
      split
      · exact shapedAccount_ok (shaped_unnamedFindings cfg parent line)
      · refine shapedAccount_bind _ fun argument => ?_
        exact shapedAccount_map (shaped_nameFindings cfg argument) fun fs hfs =>
          shaped_namedFindings cfg parent line (fun _ => shaped_nil) hfs

theorem shaped_functionFindings (cfg : Config) (parent : String) (rest : List Node) :
    Shaped (functionFindings cfg parent rest) := by
  match rest with
  | .closure line body :: _ =>
      rw [functionFindings]
      exact shaped_bodyFindings cfg parent body
  | [] => exact shaped_nil
  | .bare _ :: _ | .literal .. :: _ | .identifier .. :: _ | .memberAccess .. :: _
  | .invocation .. :: _ | .indirection .. :: _ | .keyedElement .. :: _
  | .positionalElement .. :: _ | .compositeValue .. :: _ | .assignment .. :: _
  | .iteration .. :: _ | .declaration .. :: _ | .other .. :: _ => exact shaped_nil

end

end Node

end TestRoster
