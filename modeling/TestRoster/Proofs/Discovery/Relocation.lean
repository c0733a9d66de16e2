import TestRoster.Proofs.Discovery.Containment

/-!
The subtests of a body are relative to its parent.

What is found in a body does not depend on the name that the body runs under: names are that name
followed by a part of their own, and lines and issues are the same under every name. The rows of a
table therefore have the same subtests, each below its own name.
-/
namespace TestRoster

theorem joinName_assoc (a b c : String) :
    joinName (joinName a b) c = joinName a (joinName b c) := by
  simp only [joinName, String.append_assoc]

namespace Resolution

def below (parent : String) (r : Resolution) : Resolution :=
  { r with names := r.names.map (joinName parent) }

theorem below_extend (parent : String) (r s : Resolution) :
    (r.extend s).below parent = (r.below parent).extend (s.below parent) := by
  simp [below, extend]

theorem below_joinName (parent segment : String) (r : Resolution) :
    r.below (joinName parent segment) = (r.below segment).below parent := by
  simp [below, joinName_assoc]

/-- A launch on a line under each of several names, with the same subtests below each. -/
def launched (line : Int) (inside : Resolution) (names : List String) : Resolution where
  names := names.flatMap fun name => name :: (inside.below name).names
  lines := names.flatMap fun _ => line :: inside.lines
  issues := names.flatMap fun _ => inside.issues

theorem launched_cons (line : Int) (inside : Resolution) (name : String) (rest : List String) :
    launched line inside (name :: rest) =
      (extend ⟨[name], [line], []⟩ (inside.below name)).extend (launched line inside rest) := by
  simp [launched, extend, below]

theorem below_launched (parent : String) (line : Int) (inside : Resolution)
    (names : List String) :
    (launched line inside names).below parent =
      launched line inside (names.map (joinName parent)) := by
  induction names with
  | nil => rfl
  | cons name rest ih =>
      have single : below parent ⟨[name], [line], []⟩ = ⟨[joinName parent name], [line], []⟩ := rfl
      rw [List.map_cons, launched_cons, launched_cons, below_extend, below_extend, ih, single,
        below_joinName]

end Resolution

namespace Node

open Finding

/-- That findings, under every name, tell the same below that name. -/
def Relative (findings : String → List Finding) : Prop :=
  ∃ relative : Resolution, ∀ parent, .ofFindings (findings parent) = relative.below parent

/-- That an account ends with the same fault under every name, or tells the same below it. -/
def RelativeAccount (account : String → Except Fault (List Finding)) : Prop :=
  (∃ cause, ∀ parent, account parent = .error cause) ∨
    ∃ findings : String → List Finding, (∀ parent, account parent = .ok (findings parent)) ∧
      Relative findings

section

variable {fs gs : String → List Finding}

/-- Findings without names that tell the same under every name. -/
theorem relative_of_unnamed {told : Resolution} (none : told.names = [])
    (h : ∀ parent, .ofFindings (fs parent) = told) : Relative fs := by
  refine ⟨told, fun parent => ?_⟩
  rw [h, Resolution.below, none, List.map_nil, ← none]

theorem relative_nil : Relative fun _ => [] :=
  relative_of_unnamed rfl fun _ => rfl

theorem Relative.append (h : Relative fs) (k : Relative gs) :
    Relative fun parent => fs parent ++ gs parent := by
  obtain ⟨r, hr⟩ := h
  obtain ⟨s, hs⟩ := k
  refine ⟨r.extend s, fun parent => ?_⟩
  dsimp only
  rw [Resolution.ofFindings_append, hr, hs, Resolution.below_extend]

/-- The fault of a statement: its warning names the parent, its issue does not. -/
theorem relative_statementFault (statement : Node) (cause : Fault) :
    Relative fun parent => [statementFault parent statement cause] := by
  have unnamed : (Resolution.ofFindings [statementFault "" statement cause]).names = [] := rfl
  exact relative_of_unnamed unnamed fun _ => rfl

theorem RelativeAccount.contained {account : String → Except Fault (List Finding)}
    (h : RelativeAccount account) (statement : Node) :
    Relative fun parent => containedFindings parent statement (account parent) := by
  rcases h with ⟨cause, failed⟩ | ⟨findings, found, relative⟩
  · simp only [failed, containedFindings]
    exact relative_statementFault statement cause
  · simp only [found, containedFindings]
    exact relative

theorem relative_rejected (parts : List Node) :
    Relative fun parent => parts.map fun part =>
      statementFault parent part (.notAStatement part.describe) := by
  induction parts with
  | nil => exact relative_nil
  | cons part rest ih => exact (relative_statementFault part _).append ih

theorem ofFindings_launchedFindings (parent : String) (line : Int)
    {inside : String → List Finding} {relative : Resolution}
    (h : ∀ name, .ofFindings (inside name) = relative.below name) (names : List String) :
    Resolution.ofFindings (launchedFindings parent line inside names) =
      .launched line relative (names.map (joinName parent)) := by
  induction names with
  | nil => rfl
  | cons name rest ih =>
      have first : launchedFindings parent line inside (name :: rest) =
          [.name (joinName parent name) line] ++ inside (joinName parent name) ++
            launchedFindings parent line inside rest := rfl
      rw [first, Resolution.ofFindings_append, Resolution.ofFindings_append, ih, h, List.map_cons,
        Resolution.launched_cons]
      rfl

theorem relativeAccount_unnamed (cfg : Config) (line : Int) :
    RelativeAccount fun parent => .ok (unnamedFindings cfg parent line) := by
  have skipped : (Resolution.skipped .noNameArgument line).names = [] := rfl
  refine .inr ⟨_, fun _ => rfl, relative_of_unnamed skipped fun parent => ?_⟩
  unfold unnamedFindings
  split <;> rfl

theorem relativeAccount_launch (cfg : Config) (line : Int) {inside : String → List Finding}
    (h : Relative inside) (search : Except Fault (List Finding)) :
    RelativeAccount fun parent => search.map (namedFindings cfg parent line inside) := by
  obtain ⟨relative, same⟩ := h
  cases search with
  | error cause => exact .inl ⟨cause, fun _ => rfl⟩
  | ok fs =>
      -- the search does not see the parent: its names are placed below it, its issues stay
      refine .inr ⟨_, fun _ => rfl,
        Resolution.extend { issues := (Resolution.ofFindings fs).issues }
        (.launched line relative (Resolution.ofFindings fs).names), fun parent => ?_⟩
      rw [ofFindings_namedFindings, ofFindings_launchedFindings parent line same,
        Resolution.below_extend, Resolution.below_launched]
      rfl

end

mutual

theorem relative_bodyFindings (cfg : Config) (body : Sequence) :
    Relative fun parent => bodyFindings cfg parent body := by
  cases body with
  | nodes statements =>
      simp only [bodyFindings]
      exact relative_eachFindings cfg statements
  | lone n =>
      simp only [bodyFindings]
      cases n.parts? with
      | none => exact relative_statementFault n _
      | some parts => exact relative_rejected parts

theorem relative_eachFindings (cfg : Config) (statements : List Node) :
    Relative fun parent => eachFindings cfg parent statements := by
  cases statements with
  | nil =>
      simp only [eachFindings]
      exact relative_nil
  | cons statement rest =>
      simp only [eachFindings]
      exact ((relative_statementFindings cfg statement).contained statement).append
        (relative_eachFindings cfg rest)

theorem relative_statementFindings (cfg : Config) (statement : Node) :
    RelativeAccount fun parent => statementFindings cfg parent statement := by
  cases statement with
  | bare value => exact .inl ⟨_, fun _ => rfl⟩
  | iteration line source body =>
      simp only [statementFindings]
      exact .inr ⟨_, fun _ => rfl, relative_bodyFindings cfg body⟩
  | invocation line callee arguments =>
      simp only [statementFindings]
      split
      · exact relative_launchFindings cfg line arguments
      · exact .inr ⟨_, fun _ => rfl, relative_nil⟩
  | literal | identifier | memberAccess | indirection | keyedElement | positionalElement
  | compositeValue | assignment | closure | declaration | other =>
      exact .inr ⟨_, fun _ => rfl, relative_nil⟩

theorem relative_launchFindings (cfg : Config) (line : Int) (arguments : Sequence) :
    RelativeAccount fun parent => launchFindings cfg parent line arguments := by
  match arguments with
  | .nodes [] => exact relativeAccount_unnamed cfg line
  | .nodes (argument :: rest) =>
      simp only [launchFindings]
      exact relativeAccount_launch cfg line (relative_functionFindings cfg rest) _
  | .lone n =>
      simp only [launchFindings]
      split
      · exact relativeAccount_unnamed cfg line
      · cases (Sequence.lone n).get? 0 with
        | error cause => exact .inl ⟨cause, fun _ => rfl⟩
        | ok argument => exact relativeAccount_launch cfg line relative_nil _

theorem relative_functionFindings (cfg : Config) (rest : List Node) :
    Relative fun parent => functionFindings cfg parent rest := by
  match rest with
  | .closure line body :: _ =>
      simp only [functionFindings]
      exact relative_bodyFindings cfg body
  | [] => exact relative_nil
  | .bare _ :: _ | .literal .. :: _ | .identifier .. :: _ | .memberAccess .. :: _
  | .invocation .. :: _ | .indirection .. :: _ | .keyedElement .. :: _
  | .positionalElement .. :: _ | .compositeValue .. :: _ | .assignment .. :: _
  | .iteration .. :: _ | .declaration .. :: _ | .other .. :: _ => exact relative_nil

end

end Node

/-- Subtests are relative to their parent. A body gives one list of parts of names, with lines and
issues, that is the same under every parent; and a launch gives, below each of the names that it
stands for, the subtests that the launched function gives under any name. -/
theorem subtests_are_relative_to_parent (cfg : Config) :
    (∀ body : Sequence, ∃ relative : Resolution, ∀ parent : String,
      (Node.resolve (cfg.withStrict false) parent body).result =
        .ok ⟨relative.names.map fun r => parent ++ "/" ++ r, relative.lines, relative.issues⟩) ∧
    ∀ (line : Int) (argument : Node) (rest : List Node), ∃ inside : Resolution,
      (∀ name : String, (Node.resolveFunction (cfg.withStrict false) name rest).result =
        .ok ⟨inside.names.map fun r => name ++ "/" ++ r, inside.lines, inside.issues⟩) ∧
      ∀ parent : String,
        (Node.resolveLaunch (cfg.withStrict false) parent line (.nodes (argument :: rest))).result =
          (argument.resolveName (cfg.withStrict false)).result.map fun segments =>
            ⟨segments.names.flatMap fun segment => (parent ++ "/" ++ segment) ::
                inside.names.map fun r => (parent ++ "/" ++ segment) ++ "/" ++ r,
              segments.names.flatMap fun _ => line :: inside.lines,
              segments.issues ++ segments.names.flatMap fun _ => inside.issues⟩ := by
  constructor
  · intro body
    obtain ⟨relative, same⟩ := Node.relative_bodyFindings cfg body
    refine ⟨relative, fun parent => ?_⟩
    rw [Node.resolve_tolerant, same]
    rfl
  · intro line argument rest
    obtain ⟨inside, same⟩ := Node.relative_functionFindings cfg rest
    refine ⟨inside, fun name => ?_, fun parent => ?_⟩
    · rw [Node.resolveFunction_eq, Node.functionFindings_withStrict]
      exact congrArg Except.ok (same name)
    · rw [Node.resolveLaunch_eq, Node.resolveName_eq, Node.launchFindings_withStrict,
        Node.nameFindings_withStrict, Node.launchFindings]
      cases argument.nameFindings cfg with
      | error cause => rfl
      | ok fs =>
          change Except.ok (Resolution.ofFindings (Node.namedFindings ..)) = _
          rw [Node.ofFindings_namedFindings, Node.ofFindings_launchedFindings parent line same]
          simp only [Resolution.launched, Resolution.extend, List.flatMap_map, List.nil_append]
          rfl

end TestRoster
