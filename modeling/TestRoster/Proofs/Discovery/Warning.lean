import Mathlib.Data.List.Forall2
import TestRoster.Proofs.Discovery.Containment

/-!
Warnings mirror contained faults.

A fault is logged where it is contained, while the issue that reports it travels up through the
resolutions around it. Both are views of one list of findings, so they agree one to one and in
order; a warning about a statement names a test that is listed.
-/
namespace TestRoster

open Finding

/-- A warning about what was skipped, and the issue of the same line and reason. `listed` holds of
the names of tests that a statement can stand in. -/
inductive Warns (listed : String → Prop) : LogRecord → Issue → Prop
  | row (cause : Fault) (line : Int) :
      Warns listed
        ⟨.warning, "Skipping table row at line " ++ toString line ++ ": " ++ cause.message⟩
        ⟨.unexpectedShape cause, line⟩
  | statement (parent : String) (cause : Fault) (line : Int) (stands : listed parent) :
      Warns listed
        ⟨.warning, "Skipping statement in " ++ parent ++ " at line " ++ toString line ++ ": " ++
          cause.message⟩
        ⟨.unexpectedShape cause, line⟩

def warnings (log : List LogRecord) : List LogRecord :=
  log.filter fun record => record.level = .warning

namespace Finding

/-- The findings of a resolution: a fault is one of a row or of a statement that stands in a listed
test, and whatever else is logged is no warning. -/
inductive Logged (listed : String → Prop) : Finding → Prop
  | name (text : String) (line : Int) : Logged listed (.name text line)
  | ambiguous (why : Ambiguity) (line : Int) : Logged listed (.ambiguous why line)
  | note (text : String) : Logged listed (.note ⟨.debug, text⟩)
  | row (element : Node) (cause : Fault) : Logged listed (element.elementFault cause)
  | statement (parent : String) (statement : Node) (cause : Fault) (stands : listed parent) :
      Logged listed (statement.statementFault parent cause)

/-- That names among findings are those of listed tests. -/
def Lists (listed : String → Prop) (fs : List Finding) : Prop :=
  ∀ text line, .name text line ∈ fs → listed text

def AllLogged (listed : String → Prop) (fs : List Finding) : Prop :=
  ∀ f ∈ fs, f.Logged listed

section

variable {listed : String → Prop} {fs gs : List Finding}

theorem Lists.mono (h : Lists listed gs) (sub : fs ⊆ gs) : Lists listed fs :=
  fun text line member => h text line (sub member)

theorem allLogged_nil : AllLogged listed [] := by
  intro f member
  cases member

theorem AllLogged.append (h : AllLogged listed fs) (h' : AllLogged listed gs) :
    AllLogged listed (fs ++ gs) :=
  List.forall_mem_append.mpr ⟨h, h'⟩

/-- The warnings of a log mirror the faults among the issues, whatever stands between them. -/
theorem AllLogged.mirrored (h : AllLogged listed fs) :
    List.Forall₂ (Warns listed) (warnings (fs.filterMap record?))
      ((fs.filterMap issue?).filter Issue.isUnexpectedShape) := by
  induction fs with
  | nil => exact .nil
  | cons f rest ih =>
      obtain ⟨first, later⟩ := List.forall_mem_cons.mp h
      cases first with
      | name | ambiguous | note => exact ih later
      | row element cause => exact .cons (.row _ _) (ih later)
      | statement parent statement cause stands =>
          exact .cons (.statement parent _ _ stands) (ih later)

theorem Sought.logged {f : Finding} (h : f.Sought) : f.Logged listed := by
  cases h with
  | name text line => exact .name text line
  | ambiguous why line => exact .ambiguous why line
  | element element cause => exact .row element cause

end

end Finding

namespace Node

section

variable {listed : String → Prop} {parent : String}

theorem allLogged_statementFault (stands : listed parent) (statement : Node) (cause : Fault) :
    AllLogged listed [statement.statementFault parent cause] :=
  List.forall_mem_singleton.mpr (.statement parent statement cause stands)

theorem allLogged_unnamedFindings (cfg : Config) (line : Int) :
    AllLogged listed (unnamedFindings cfg parent line) := by
  refine .append ?_ (List.forall_mem_singleton.mpr (.ambiguous _ _))
  split
  · exact List.forall_mem_singleton.mpr (.note _)
  · exact allLogged_nil

/-- The names of a launch are listed, and so they can stand around what is inside. -/
theorem allLogged_launchedFindings (line : Int) {inside : String → List Finding}
    (hi : ∀ name, listed name → Lists listed (inside name) → AllLogged listed (inside name))
    {names : List String} (lists : Lists listed (launchedFindings parent line inside names)) :
    AllLogged listed (launchedFindings parent line inside names) := by
  intro f member
  obtain ⟨name, launched, member⟩ := List.mem_flatMap.mp member
  have sub : .name (joinName parent name) line :: inside (joinName parent name) ⊆
      launchedFindings parent line inside names :=
    fun g inner => List.mem_flatMap.mpr ⟨name, launched, inner⟩
  rcases List.mem_cons.mp member with rfl | inner
  · exact .name _ line
  · exact hi _ (lists _ line (sub List.mem_cons_self))
      (lists.mono (List.Subset.trans (List.subset_cons_self _ _) sub)) f inner

theorem allLogged_namedFindings (cfg : Config) (line : Int) {inside : String → List Finding}
    (hi : ∀ name, listed name → Lists listed (inside name) → AllLogged listed (inside name))
    {fs : List Finding} (sought : ∀ f ∈ fs, f.Sought)
    (lists : Lists listed (namedFindings cfg parent line inside fs)) :
    AllLogged listed (namedFindings cfg parent line inside fs) := by
  unfold namedFindings at lists ⊢
  refine .append (fun f member => (sought f (List.mem_filter.mp member).1).logged) ?_
  have lists := lists.mono (List.subset_append_right _ _)
  split
  · split
    · intro f member
      obtain ⟨issue, -, rfl⟩ := List.mem_map.mp member
      exact .note _
    · exact allLogged_nil
  next named =>
    rw [if_neg named] at lists
    exact allLogged_launchedFindings line hi lists

/-- A launch with a name argument, where its findings are told. -/
theorem allLogged_launch (cfg : Config) (line : Int) (argument : Node)
    {inside : String → List Finding}
    (hi : ∀ name, listed name → Lists listed (inside name) → AllLogged listed (inside name))
    {fs : List Finding}
    (given : (argument.nameFindings cfg).map (namedFindings cfg parent line inside) = .ok fs)
    (lists : Lists listed fs) : AllLogged listed fs := by
  cases found : argument.nameFindings cfg with
  | error cause =>
      rw [found] at given
      cases given
  | ok names =>
      rw [found] at given
      cases given
      exact allLogged_namedFindings cfg line hi (sought_nameFindings cfg argument names found) lists

end

mutual

theorem allLogged_bodyFindings (cfg : Config) {listed : String → Prop} (parent : String)
    (stands : listed parent) (body : Sequence)
      (lists : Lists listed (bodyFindings cfg parent body)) :
    AllLogged listed (bodyFindings cfg parent body) := by
  cases body with
  | nodes statements =>
      rw [bodyFindings] at lists ⊢
      exact allLogged_eachFindings cfg parent stands statements lists
  | lone n =>
      rw [bodyFindings]
      split
      · exact allLogged_statementFault stands n _
      · intro f member
        obtain ⟨part, -, rfl⟩ := List.mem_map.mp member
        exact .statement parent part _ stands

theorem allLogged_eachFindings (cfg : Config) {listed : String → Prop} (parent : String)
    (stands : listed parent) (statements : List Node)
    (lists : Lists listed (eachFindings cfg parent statements)) :
    AllLogged listed (eachFindings cfg parent statements) := by
  cases statements with
  | nil =>
      rw [eachFindings]
      exact allLogged_nil
  | cons statement rest =>
      rw [eachFindings] at lists ⊢
      refine .append ?_ (allLogged_eachFindings cfg parent stands rest
        (lists.mono (List.subset_append_right _ _)))
      have lists := lists.mono (List.subset_append_left _ _)
      cases given : statementFindings cfg parent statement with
      | error cause => exact allLogged_statementFault stands statement cause
      | ok fs =>
          rw [given] at lists
          exact allLogged_statementFindings cfg parent stands statement fs given lists

theorem allLogged_statementFindings (cfg : Config) {listed : String → Prop} (parent : String)
    (stands : listed parent) (statement : Node) (fs : List Finding)
    (given : statementFindings cfg parent statement = .ok fs) (lists : Lists listed fs) :
    AllLogged listed fs := by
  cases statement with
  | bare value =>
      rw [statementFindings] at given
      cases given
  | iteration line source body =>
      rw [statementFindings] at given
      cases given
      exact allLogged_bodyFindings cfg parent stands body lists
  | invocation line callee arguments =>
      rw [statementFindings] at given
      split at given
      · exact allLogged_launchFindings cfg parent line arguments fs given lists
      · cases given
        exact allLogged_nil
  | literal | identifier | memberAccess | indirection | keyedElement | positionalElement
  | compositeValue | assignment | closure | declaration | other =>
      rw [statementFindings] at given
      · cases given
        exact allLogged_nil
      all_goals simp

theorem allLogged_launchFindings (cfg : Config) {listed : String → Prop} (parent : String)
    (line : Int) (arguments : Sequence) (fs : List Finding)
    (given : launchFindings cfg parent line arguments = .ok fs) (lists : Lists listed fs) :
    AllLogged listed fs := by
  match arguments with
  | .nodes [] =>
      rw [launchFindings] at given
      cases given
      exact allLogged_unnamedFindings cfg line
  | .nodes (argument :: rest) =>
      rw [launchFindings] at given
      exact allLogged_launch cfg line argument
        (fun name stands lists => allLogged_functionFindings cfg name stands rest lists) given lists
  | .lone n =>
      rw [launchFindings] at given
      split at given
      · cases given
        exact allLogged_unnamedFindings cfg line
      · cases first : (Sequence.lone n).get? 0 with
        | error cause =>
            rw [first] at given
            cases given
        | ok argument =>
            rw [first] at given
            exact allLogged_launch cfg line argument (fun _ _ _ => allLogged_nil) given lists

theorem allLogged_functionFindings (cfg : Config) {listed : String → Prop} (parent : String)
    (stands : listed parent) (rest : List Node)
    (lists : Lists listed (functionFindings cfg parent rest)) :
    AllLogged listed (functionFindings cfg parent rest) := by
  match rest with
  | .closure line body :: _ =>
      rw [functionFindings] at lists ⊢
      exact allLogged_bodyFindings cfg parent stands body lists
  | [] => exact allLogged_nil
  | .bare _ :: _ | .literal .. :: _ | .identifier .. :: _ | .memberAccess .. :: _
  | .invocation .. :: _ | .indirection .. :: _ | .keyedElement .. :: _
  | .positionalElement .. :: _ | .compositeValue .. :: _ | .assignment .. :: _
  | .iteration .. :: _ | .declaration .. :: _ | .other .. :: _ => exact allLogged_nil

end

end Node

namespace Entry

/-- The names of an entry's findings are those of its subtests. -/
theorem mem_subtests_of_name {cfg : Config} {mode : Mode} {path text : String} {line : Int}
    {e : Entry}
    (member : .name text line ∈ e.findings cfg mode) :
    text ∈ (e.subtests cfg mode path).map TestCase.name := by
  have named : (text, line) ∈ (e.findings cfg mode).filterMap name? :=
    List.mem_filterMap.mpr ⟨_, member, rfl⟩
  simp only [subtests, Resolution.ofFindings, List.zip_map', List.map_map]
  exact List.mem_map.mpr ⟨_, named, rfl⟩

theorem allLogged_findings (cfg : Config) {listed : String → Prop} (e : Entry)
    (stands : listed e.name)
    (lists : Lists listed (e.findings cfg .tests)) : AllLogged listed (e.findings cfg .tests) := by
  refine .append ?_ (Node.allLogged_bodyFindings cfg e.name stands e.body
    (lists.mono (List.subset_append_right _ _)))
  unfold announcement
  split
  · exact List.forall_mem_singleton.mpr (.note _)
  · exact allLogged_nil

end Entry

/-- The warnings of a tolerant discovery are those of the unexpected shapes among its issues: one
for each, in their order, with their lines and reasons. A statement that is skipped stands in a test
that the discovery lists. -/
theorem warnings_mirror_contained_faults (cfg : Config) (path : String) (declarations : List Node) :
    let run := Discovery.ofDeclarations (cfg.withStrict false) .tests path declarations
    ∃ found, run.result = .ok found ∧
      List.Forall₂ (Warns (· ∈ found.tests.map TestCase.name)) (warnings run.log)
        (found.issues.filter Issue.isUnexpectedShape) := by
  intro run
  have account : run = outcome false
      ((Entry.classify cfg .tests declarations).flatMap (Entry.findings cfg .tests))
      (Entry.contributions cfg .tests path (Entry.classify cfg .tests declarations)) := by
    change Discovery.ofDeclarations (cfg.withStrict false) .tests path declarations = _
    rw [Discovery.ofDeclarations_eq, Entry.findings_withStrict, Entry.contributions_withStrict]
    rfl
  refine ⟨_, congrArg Step.result account, ?_⟩
  rw [account, Entry.issues_contributions]
  refine AllLogged.mirrored fun f member => ?_
  obtain ⟨e, entry, member⟩ := List.mem_flatMap.mp member
  rw [Entry.contributions_eq_flatMap]
  have tests {name : String} (own : name ∈ (e.root .tests path :: e.subtests cfg .tests path).map
      TestCase.name) : name ∈ ((Entry.classify cfg .tests declarations).flatMap fun e =>
        e.root .tests path :: e.subtests cfg .tests path).map TestCase.name := by
    obtain ⟨t, listed, rfl⟩ := List.mem_map.mp own
    exact List.mem_map_of_mem (List.mem_flatMap.mpr ⟨e, entry, listed⟩)
  exact Entry.allLogged_findings cfg e (tests List.mem_cons_self)
    (fun text line named => tests (.tail _ (Entry.mem_subtests_of_name named))) f member

end TestRoster
