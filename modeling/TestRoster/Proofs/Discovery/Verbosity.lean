import TestRoster.Proofs.Discovery.Strictness

/-!
What a verbose discovery tells of skipped subtests.

A body is a list of visits: launches with what the search for their names came upon, and faults that
are contained in a statement. Issues and debug records are views of the same list. A launch that
stands for no name has a record for each of its issues; one that stands for some name has none, so
an issue beside a name is not told.
-/
namespace TestRoster

open Finding

def Config.withVerbose (cfg : Config) (verbose : Bool) : Config :=
  { cfg with verbose := verbose }

/-- One thing that the resolution of a body gets to, with the name of the test that it stands in. -/
inductive Visit where
  /-- A launch without arguments. -/
  | unnamed (parent : String) (line : Int)
  /-- A launch, and what its name argument stands for. -/
  | launch (parent : String) (found : Resolution)
  /-- A statement that could not be read. -/
  | fault (cause : Fault) (line : Int)

namespace Visit

def issues : Visit → List Issue
  | unnamed _ line => [⟨.ambiguous .noNameArgument, line⟩]
  | launch _ found => found.issues
  | fault cause line => [⟨.unexpectedShape cause, line⟩]

def records : Visit → List LogRecord
  | unnamed parent line =>
      [⟨.debug, "Unresolved subtest in " ++ parent ++ " at line " ++ toString line ++ ": " ++
        Ambiguity.noNameArgument.message⟩]
  | launch parent found =>
      if found.names.isEmpty then
        found.issues.map fun issue =>
          ⟨.debug, "Unresolved subtest in " ++ parent ++ ": " ++ issue.text⟩
      else []
  | fault .. => []

end Visit

namespace Node

def containedVisits (statement : Node) : Except Fault (List Visit) → List Visit
  | .ok visits => visits
  | .error cause => [.fault (cause.within statement.describe) statement.line]

def launchedVisits (parent : String) (inside : String → List Visit) (found : Resolution) :
    List Visit :=
  .launch parent found :: found.names.flatMap fun name => inside (joinName parent name)

mutual

def bodyVisits (cfg : Config) (parent : String) : Sequence → List Visit
  | .nodes statements => eachVisits cfg parent statements
  | .lone n =>
      match n.parts? with
      | none => n.containedVisits (.error (.notIterable n.describe))
      | some parts => parts.flatMap fun part =>
          part.containedVisits (.error (.notAStatement part.describe))

def eachVisits (cfg : Config) (parent : String) : List Node → List Visit
  | [] => []
  | statement :: rest =>
      statement.containedVisits (statementVisits cfg parent statement) ++
        eachVisits cfg parent rest

def statementVisits (cfg : Config) (parent : String) : Node → Except Fault (List Visit)
  | .bare value => .error (.notAStatement value.typeName)
  | .iteration _ _ body => .ok (bodyVisits cfg parent body)
  | .invocation line callee arguments =>
      if callee.isLaunch cfg then launchVisits cfg parent line arguments else .ok []
  | _ => .ok []

def launchVisits (cfg : Config) (parent : String) (line : Int) :
    Sequence → Except Fault (List Visit)
  | .nodes [] => .ok [.unnamed parent line]
  | .nodes (argument :: rest) => do
      return launchedVisits parent (fun name => functionVisits cfg name rest)
        (.ofFindings (← argument.nameFindings cfg))
  | .lone n =>
      if !(Sequence.lone n).truthy then .ok [.unnamed parent line]
      else do
        let argument ← (Sequence.lone n).get? 0
        return launchedVisits parent (fun _ => []) (.ofFindings (← argument.nameFindings cfg))

def functionVisits (cfg : Config) (parent : String) : List Node → List Visit
  | .closure _ body :: _ => bodyVisits cfg parent body
  | _ => []

end

end Node

def debugRecords (log : List LogRecord) : List LogRecord :=
  log.filter fun record => record.level = .debug

namespace Finding

def details (fs : List Finding) : List LogRecord :=
  debugRecords (fs.filterMap record?)

theorem details_append (fs gs : List Finding) : details (fs ++ gs) = details fs ++ details gs := by
  simp only [details, debugRecords, List.filterMap_append, List.filter_append]

/-- A search for names leaves warnings only. -/
theorem details_of_sought {fs : List Finding} (h : ∀ f ∈ fs, f.Sought) : details fs = [] := by
  refine List.filter_eq_nil_iff.mpr fun record hr => ?_
  obtain ⟨f, hf, told⟩ := List.mem_filterMap.mp hr
  cases h f hf with
  | name | ambiguous => cases told
  | element element cause =>
      obtain rfl := Option.some.inj told
      exact of_decide_eq_false rfl

/-- How the accounts of a quiet and of a verbose resolution tell of the same visits. -/
structure Told (quiet loud : List Finding) (visits : List Visit) : Prop where
  same : Resolution.ofFindings loud = .ofFindings quiet
  issues : (Resolution.ofFindings quiet).issues = visits.flatMap Visit.issues
  silent : details quiet = []
  details : details loud = visits.flatMap Visit.records

theorem told_nil : Told [] [] [] :=
  ⟨rfl, rfl, rfl, rfl⟩

theorem Told.append {quiet loud quiet' loud' : List Finding} {visits visits' : List Visit}
    (h : Told quiet loud visits) (h' : Told quiet' loud' visits') :
    Told (quiet ++ quiet') (loud ++ loud') (visits ++ visits') where
  same := by rw [Resolution.ofFindings_append, h.same, h'.same, ← Resolution.ofFindings_append]
  issues := by
    rw [Resolution.ofFindings_append, List.flatMap_append, ← h.issues, ← h'.issues]
    rfl
  silent := by rw [details_append, h.silent, h'.silent, List.append_nil]
  details := by rw [details_append, h.details, h'.details, List.flatMap_append]

theorem Told.flatMap {α : Type} (xs : List α) {quiet loud : α → List Finding}
    {visits : α → List Visit} (h : ∀ x, Told (quiet x) (loud x) (visits x)) :
    Told (xs.flatMap quiet) (xs.flatMap loud) (xs.flatMap visits) := by
  induction xs with
  | nil => exact told_nil
  | cons x rest ih => exact (h x).append ih

theorem told_name (text : String) (line : Int) : Told [.name text line] [.name text line] [] :=
  ⟨rfl, rfl, rfl, rfl⟩

end Finding

namespace Node

/-- Quiet and verbose accounts that end with the same fault, or tell of the same visits. -/
inductive ToldAccount :
    Except Fault (List Finding) → Except Fault (List Finding) → Except Fault (List Visit) → Prop
  | error (cause : Fault) : ToldAccount (.error cause) (.error cause) (.error cause)
  | ok {quiet loud : List Finding} {visits : List Visit} (h : Told quiet loud visits) :
      ToldAccount (.ok quiet) (.ok loud) (.ok visits)

theorem told_statementFault (parent : String) (statement : Node) (cause : Fault) :
    Told [statementFault parent statement cause] [statementFault parent statement cause]
      (statement.containedVisits (.error cause)) :=
  ⟨rfl, rfl, rfl, rfl⟩

theorem told_rejected (parent : String) (parts : List Node) :
    Told (parts.map fun part => statementFault parent part (.notAStatement part.describe))
      (parts.map fun part => statementFault parent part (.notAStatement part.describe))
      (parts.flatMap fun part => part.containedVisits (.error (.notAStatement part.describe))) := by
  induction parts with
  | nil => exact told_nil
  | cons part rest ih => exact (told_statementFault parent part _).append ih

theorem ToldAccount.contained {quiet loud : Except Fault (List Finding)}
    {visits : Except Fault (List Visit)} (h : ToldAccount quiet loud visits) (parent : String)
    (statement : Node) :
    Told (containedFindings parent statement quiet) (containedFindings parent statement loud)
      (statement.containedVisits visits) := by
  cases h with
  | error cause => exact told_statementFault parent statement cause
  | ok h => exact h

section

variable (cfg : Config) (parent : String)

theorem told_unnamedFindings (line : Int) :
    Told (unnamedFindings (cfg.withVerbose false) parent line)
      (unnamedFindings (cfg.withVerbose true) parent line) [.unnamed parent line] :=
  ⟨rfl, rfl, rfl, rfl⟩

theorem details_unresolvedNotes (issues : List Issue) :
    details (unresolvedNotes parent issues) = issues.map fun issue =>
      ⟨.debug, "Unresolved subtest in " ++ parent ++ ": " ++ issue.text⟩ := by
  induction issues with
  | nil => rfl
  | cons issue rest ih =>
      rw [List.map_cons, ← ih]
      rfl

/-- The search for the names of a launch, with the notes on it. The names are left out: what they
stand for is told launch by launch. -/
theorem told_search {fs : List Finding} (h : ∀ f ∈ fs, f.Sought) :
    Told (withoutNames fs)
      (withoutNames fs ++ if (Resolution.ofFindings fs).names.isEmpty then
        unresolvedNotes parent (Resolution.ofFindings fs).issues else [])
      [.launch parent (.ofFindings fs)] where
  same := by
    rw [Resolution.ofFindings_append]
    split
    · rw [ofFindings_unresolvedNotes, Resolution.extend_nil]
    · exact Resolution.extend_nil _
  issues := by
    rw [ofFindings_withoutNames, List.flatMap_singleton]
    rfl
  silent := details_of_sought fun f hf => h f (List.mem_filter.mp hf).1
  details := by
    have quiet : details (withoutNames fs) = [] :=
      details_of_sought fun f hf => h f (List.mem_filter.mp hf).1
    rw [details_append, quiet, List.nil_append, List.flatMap_singleton, Visit.records]
    split
    · exact details_unresolvedNotes parent _
    · rfl

theorem told_namedFindings (line : Int) {quiet loud : String → List Finding}
    {visits : String → List Visit} (inside : ∀ name, Told (quiet name) (loud name) (visits name))
    {fs : List Finding} (h : ∀ f ∈ fs, f.Sought) :
    Told (namedFindings (cfg.withVerbose false) parent line quiet fs)
      (namedFindings (cfg.withVerbose true) parent line loud fs)
      (launchedVisits parent visits (.ofFindings fs)) := by
  have search := told_search parent h
  have launched (name : String) := (told_name (joinName parent name) line).append
    (inside (joinName parent name))
  have each := Told.flatMap (Resolution.ofFindings fs).names launched
  cases names : (Resolution.ofFindings fs).names with
  | nil =>
      simp only [namedFindings, launchedVisits, names, List.isEmpty_nil, if_true,
        List.flatMap_nil] at search ⊢
      simpa [Config.withVerbose] using search
  | cons name rest =>
      simp only [namedFindings, launchedVisits, names, List.isEmpty_cons, Bool.false_eq_true,
        if_false, List.append_nil] at search each ⊢
      exact search.append each

theorem nameFindings_withVerbose (verbose : Bool) (argument : Node) :
    argument.nameFindings (cfg.withVerbose verbose) = argument.nameFindings cfg := by
  have same : (cfg.withVerbose verbose).maxReferenceDepth = cfg.maxReferenceDepth := rfl
  exact nameFindings_congr same argument

/-- A launch with a name argument. -/
theorem told_launch (line : Int) (argument : Node) {quiet loud : String → List Finding}
    {visits : String → List Visit}
    (inside : ∀ name, Told (quiet name) (loud name) (visits name)) :
    ToldAccount
      ((argument.nameFindings (cfg.withVerbose false)).map
        (namedFindings (cfg.withVerbose false) parent line quiet))
      ((argument.nameFindings (cfg.withVerbose true)).map
        (namedFindings (cfg.withVerbose true) parent line loud))
      (do return launchedVisits parent visits (.ofFindings (← argument.nameFindings cfg))) := by
  rw [nameFindings_withVerbose, nameFindings_withVerbose]
  cases given : argument.nameFindings cfg with
  | error cause => exact .error cause
  | ok fs =>
    exact .ok (told_namedFindings cfg parent line inside (sought_nameFindings cfg _ fs given))

end

mutual

theorem told_bodyFindings (cfg : Config) (parent : String) (body : Sequence) :
    Told (bodyFindings (cfg.withVerbose false) parent body)
      (bodyFindings (cfg.withVerbose true) parent body) (bodyVisits cfg parent body) := by
  cases body with
  | nodes statements =>
      simp only [bodyFindings, bodyVisits]
      exact told_eachFindings cfg parent statements
  | lone n =>
      simp only [bodyFindings, bodyVisits]
      cases n.parts? with
      | none => exact told_statementFault parent n _
      | some parts => exact told_rejected parent parts

theorem told_eachFindings (cfg : Config) (parent : String) (statements : List Node) :
    Told (eachFindings (cfg.withVerbose false) parent statements)
      (eachFindings (cfg.withVerbose true) parent statements)
      (eachVisits cfg parent statements) := by
  cases statements with
  | nil =>
      simp only [eachFindings, eachVisits]
      exact told_nil
  | cons statement rest =>
      simp only [eachFindings, eachVisits]
      exact ((told_statementFindings cfg parent statement).contained parent statement).append
        (told_eachFindings cfg parent rest)

theorem told_statementFindings (cfg : Config) (parent : String) (statement : Node) :
    ToldAccount (statementFindings (cfg.withVerbose false) parent statement)
      (statementFindings (cfg.withVerbose true) parent statement)
      (statementVisits cfg parent statement) := by
  cases statement with
  | bare value => exact .error _
  | iteration line source body =>
      simp only [statementFindings, statementVisits]
      exact .ok (told_bodyFindings cfg parent body)
  | invocation line callee arguments =>
      have quiet : callee.isLaunch (cfg.withVerbose false) = callee.isLaunch cfg := rfl
      have loud : callee.isLaunch (cfg.withVerbose true) = callee.isLaunch cfg := rfl
      simp only [statementFindings, statementVisits, quiet, loud]
      split
      · exact told_launchFindings cfg parent line arguments
      · exact .ok told_nil
  | literal | identifier | memberAccess | indirection | keyedElement | positionalElement
  | compositeValue | assignment | closure | declaration | other => exact .ok told_nil

theorem told_launchFindings (cfg : Config) (parent : String) (line : Int)
    (arguments : Sequence) :
    ToldAccount (launchFindings (cfg.withVerbose false) parent line arguments)
      (launchFindings (cfg.withVerbose true) parent line arguments)
      (launchVisits cfg parent line arguments) := by
  match arguments with
  | .nodes [] => exact .ok (told_unnamedFindings cfg parent line)
  | .nodes (argument :: rest) =>
      simp only [launchFindings, launchVisits]
      exact told_launch cfg parent line argument fun name =>
        told_functionFindings cfg name rest
  | .lone n =>
      simp only [launchFindings, launchVisits]
      split
      · exact .ok (told_unnamedFindings cfg parent line)
      · cases (Sequence.lone n).get? 0 with
        | error cause => exact .error cause
        | ok argument => exact told_launch cfg parent line argument fun _ => told_nil

theorem told_functionFindings (cfg : Config) (parent : String) (rest : List Node) :
    Told (functionFindings (cfg.withVerbose false) parent rest)
      (functionFindings (cfg.withVerbose true) parent rest)
      (functionVisits cfg parent rest) := by
  match rest with
  | .closure line body :: _ =>
      simp only [functionFindings, functionVisits]
      exact told_bodyFindings cfg parent body
  | [] => exact told_nil
  | .bare _ :: _ | .literal .. :: _ | .identifier .. :: _ | .memberAccess .. :: _
  | .invocation .. :: _ | .indirection .. :: _ | .keyedElement .. :: _
  | .positionalElement .. :: _ | .compositeValue .. :: _ | .assignment .. :: _
  | .iteration .. :: _ | .declaration .. :: _ | .other .. :: _ => exact told_nil

end

end Node

/-- A verbose resolution tells of the launches that stand for no name: each of their issues has its
own debug record, in order, and an issue of a launch that stands for some name has none. A quiet
resolution has no debug records, and both end with the same. -/
theorem unresolved_launches_are_told (cfg : Config) (parent : String) (body : Sequence) :
    let quiet := Node.resolve ((cfg.withStrict false).withVerbose false) parent body
    let loud := Node.resolve ((cfg.withStrict false).withVerbose true) parent body
    (∃ found, quiet.result = .ok found ∧ loud.result = .ok found ∧
      found.issues = (Node.bodyVisits cfg parent body).flatMap Visit.issues) ∧
    debugRecords loud.log = (Node.bodyVisits cfg parent body).flatMap Visit.records ∧
    debugRecords quiet.log = [] := by
  have told := Node.told_bodyFindings cfg parent body
  have tolerant (verbose : Bool) :
      Node.resolve ((cfg.withStrict false).withVerbose verbose) parent body =
        outcome false (Node.bodyFindings (cfg.withVerbose verbose) parent body)
          (.ofFindings (Node.bodyFindings (cfg.withVerbose verbose) parent body)) := by
    have strict : (cfg.withStrict false).withVerbose verbose =
        (cfg.withVerbose verbose).withStrict false := rfl
    rw [strict, Node.resolve_eq, Node.bodyFindings_withStrict]
    rfl
  refine ⟨⟨_, congrArg Step.result (tolerant false), ?_, told.issues⟩, ?_, ?_⟩
  · rw [tolerant true, ← told.same]
    rfl
  · rw [tolerant true]
    exact told.details
  · rw [tolerant false]
    exact told.silent

/-- Two elements of a list, the second of which has no name: its issue has no debug record, since
the first one has a name. -/
theorem issue_beside_name_is_not_told :
    let elements : List Node :=
      [.positionalElement 3 (.literal 3 (.str "\x60a\x60")),
        .positionalElement 4 (.identifier 4 (.str "b") .null)]
    let name := Node.identifier 6 (.str "name")
      (.assignment 5 (.list [.str "_", .str "name"]) (.nodes [.compositeValue 2 (.nodes elements)])
        true)
    let launch := Node.invocation 6 (.memberAccess 6 .null (.str "Run")) (.nodes [name])
    let loud := Node.resolve ((({} : Config).withStrict false).withVerbose true) "TestA"
      (.nodes [.iteration 5 .null (.nodes [launch])])
    (∃ found, loud.result = .ok found ∧
      found.issues = [⟨.ambiguous (.undeclared (.str "b")), 4⟩]) ∧
    debugRecords loud.log = [] :=
  ⟨⟨_, rfl, rfl⟩, rfl⟩

end TestRoster
