import TestRoster.Proofs.Discovery.Entry
import TestRoster.Proofs.Discovery.Search

/-!
Strict and tolerant discovery agree.

Both read the same account: strictness is no part of it. Strict discovery fails with the first fault
of the account, tolerant discovery turns every fault into an issue, and the issues keep the order of
the account.
-/
namespace TestRoster

open Finding

def Config.withStrict (cfg : Config) (strict : Bool) : Config :=
  { cfg with strict := strict }

namespace Node

theorem nameFindings_withStrict (cfg : Config) (strict : Bool) (argument : Node) :
    argument.nameFindings (cfg.withStrict strict) = argument.nameFindings cfg :=
  have same : (cfg.withStrict strict).maxReferenceDepth = cfg.maxReferenceDepth := rfl
  nameFindings_congr same argument

theorem namedFindings_withStrict (cfg : Config) (strict : Bool) (parent : String) (line : Int)
    (inside : String → List Finding) :
    namedFindings (cfg.withStrict strict) parent line inside =
      namedFindings cfg parent line inside := rfl

mutual

theorem bodyFindings_withStrict (cfg : Config) (strict : Bool) (parent : String)
    (body : Sequence) :
    bodyFindings (cfg.withStrict strict) parent body = bodyFindings cfg parent body := by
  cases body with
  | nodes statements =>
      rw [bodyFindings, bodyFindings]
      exact eachFindings_withStrict cfg strict parent statements
  | lone n => rw [bodyFindings, bodyFindings]

theorem eachFindings_withStrict (cfg : Config) (strict : Bool) (parent : String)
    (statements : List Node) :
    eachFindings (cfg.withStrict strict) parent statements =
      eachFindings cfg parent statements := by
  cases statements with
  | nil => rw [eachFindings, eachFindings]
  | cons statement rest =>
      rw [eachFindings, eachFindings, statementFindings_withStrict cfg strict parent statement,
        eachFindings_withStrict cfg strict parent rest]

theorem statementFindings_withStrict (cfg : Config) (strict : Bool) (parent : String)
    (statement : Node) :
    statementFindings (cfg.withStrict strict) parent statement =
      statementFindings cfg parent statement := by
  cases statement with
  | iteration line source body =>
      rw [statementFindings, statementFindings, bodyFindings_withStrict cfg strict parent body]
  | invocation line callee arguments =>
      rw [statementFindings, statementFindings, launchFindings_withStrict cfg strict parent line]
      rfl
  | bare | literal | identifier | memberAccess | indirection | keyedElement | positionalElement
  | compositeValue | assignment | closure | declaration | other => rfl

theorem launchFindings_withStrict (cfg : Config) (strict : Bool) (parent : String) (line : Int)
    (arguments : Sequence) :
    launchFindings (cfg.withStrict strict) parent line arguments =
      launchFindings cfg parent line arguments := by
  match arguments with
  | .nodes [] => rfl
  | .nodes (argument :: rest) =>
      simp only [launchFindings, nameFindings_withStrict, namedFindings_withStrict,
        functionFindings_withStrict cfg strict _ rest]
  | .lone n =>
      simp only [launchFindings, nameFindings_withStrict, namedFindings_withStrict]
      rfl

theorem functionFindings_withStrict (cfg : Config) (strict : Bool) (parent : String)
    (rest : List Node) :
    functionFindings (cfg.withStrict strict) parent rest = functionFindings cfg parent rest := by
  match rest with
  | .closure line body :: _ =>
      rw [functionFindings, functionFindings, bodyFindings_withStrict cfg strict parent body]
  | [] => rfl
  | .bare _ :: _ | .literal .. :: _ | .identifier .. :: _ | .memberAccess .. :: _
  | .invocation .. :: _ | .indirection .. :: _ | .keyedElement .. :: _
  | .positionalElement .. :: _ | .compositeValue .. :: _ | .assignment .. :: _
  | .iteration .. :: _ | .declaration .. :: _ | .other .. :: _ => rfl

end

end Node

namespace Entry

theorem findings_withStrict (cfg : Config) (strict : Bool) (mode : Mode) :
    findings (cfg.withStrict strict) mode = findings cfg mode := by
  funext e
  cases mode with
  | benchmarks => rfl
  | tests =>
      rw [findings, findings, subtestFindings, subtestFindings,
        Node.bodyFindings_withStrict cfg strict]
      rfl

theorem contributions_withStrict (cfg : Config) (strict : Bool) (mode : Mode) (path : String)
    (es : List Entry) :
    contributions (cfg.withStrict strict) mode path es = contributions cfg mode path es := by
  induction es with
  | nil => rfl
  | cons e rest ih =>
      rw [contributions, contributions, ih, contribution, contribution, findings_withStrict]

end Entry

def Issue.isUnexpectedShape (issue : Issue) : Bool :=
  issue.reason.kind == "unexpected_shape"

namespace Finding

/-- The first issue that reports a fault reports the first fault. -/
theorem find?_issues (fs : List Finding) :
    ((fs.filterMap issue?).find? Issue.isUnexpectedShape = none ∧ fs.findSome? fault? = none) ∨
      ∃ cause line, fs.findSome? fault? = some cause ∧
        (fs.filterMap issue?).find? Issue.isUnexpectedShape =
          some ⟨.unexpectedShape cause, line⟩ := by
  induction fs with
  | nil => exact .inl ⟨rfl, rfl⟩
  | cons f rest ih =>
      cases f with
      | fault cause line warning => exact .inr ⟨cause, line, rfl, rfl⟩
      | name | ambiguous | note => exact ih

end Finding

theorem Fault.label_of_isUnexpectedShape {cause : Fault} (h : cause.isUnexpectedShape) :
    cause.label = "UnexpectedNodeShapeError" := by
  cases cause <;> first | rfl | cases h

/-- How a tolerant and a strict run agree. The tolerant one succeeds. If none of its issues reports
an unexpected shape, the strict one ends with the same; otherwise the strict one fails, and tells
the reason of the first such issue. -/
def StrictAgrees {α : Type} (issues : α → List Issue) (tolerant strict : Except Fault α) : Prop :=
  ∃ found, tolerant = .ok found ∧
    match (issues found).find? Issue.isUnexpectedShape with
    | none => strict = .ok found
    | some issue => ∃ fault, strict = .error fault ∧ fault.label = "UnexpectedNodeShapeError" ∧
        fault.message = issue.reason.message

theorem strictAgrees_outcome {α : Type} {issues : α → List Issue} {fs : List Finding} {a : α}
    (hs : Shaped fs) (ha : issues a = fs.filterMap issue?) :
    StrictAgrees issues (outcome false fs a).result (outcome true fs a).result := by
  refine ⟨a, rfl, ?_⟩
  rw [ha]
  rcases find?_issues fs with ⟨noIssue, noFault⟩ | ⟨cause, line, first, issue⟩
  · rw [noIssue]
    simp [outcome, obstacle?, noFault]
  · rw [issue]
    have stopped : obstacle? true fs = some cause := first
    have shape := hs.of_obstacle stopped
    exact ⟨cause, by simp [outcome, stopped], Fault.label_of_isUnexpectedShape shape, rfl⟩

theorem shaped_findings (cfg : Config) (mode : Mode) (es : List Entry) :
    Shaped (es.flatMap (Entry.findings cfg mode)) := by
  refine shaped_flatMap fun e _ => shaped_append.mpr ⟨?_, ?_⟩
  · unfold Entry.announcement
    split
    · exact shaped_singleton rfl
    · exact shaped_nil
  · cases mode with
    | benchmarks => exact shaped_nil
    | tests => exact Node.shaped_bodyFindings cfg e.name e.body

/-- Strictness decides only whether the first unexpected shape ends a discovery. -/
theorem strict_agrees_with_tolerant (cfg : Config) :
    (∀ (mode : Mode) (path : String) (declarations : List Node),
      StrictAgrees Discovery.issues
        (Discovery.ofDeclarations (cfg.withStrict false) mode path declarations).result
        (Discovery.ofDeclarations (cfg.withStrict true) mode path declarations).result) ∧
    ∀ (parent : String) (body : Sequence),
      StrictAgrees Resolution.issues (Node.resolve (cfg.withStrict false) parent body).result
        (Node.resolve (cfg.withStrict true) parent body).result := by
  constructor
  · intro mode path declarations
    have same (strict : Bool) : Discovery.ofDeclarations (cfg.withStrict strict) mode path
        declarations = outcome strict
          ((Entry.classify cfg mode declarations).flatMap (Entry.findings cfg mode))
          (Entry.contributions cfg mode path (Entry.classify cfg mode declarations)) := by
      rw [Discovery.ofDeclarations_eq, Entry.findings_withStrict, Entry.contributions_withStrict]
      rfl
    rw [same, same]
    exact strictAgrees_outcome (shaped_findings cfg mode _)
      (Entry.issues_contributions cfg mode path _)
  · intro parent body
    have same (strict : Bool) : Node.resolve (cfg.withStrict strict) parent body =
        outcome strict (Node.bodyFindings cfg parent body)
          (.ofFindings (Node.bodyFindings cfg parent body)) := by
      rw [Node.resolve_eq, Node.bodyFindings_withStrict]
      rfl
    rw [same, same]
    exact strictAgrees_outcome (Node.shaped_bodyFindings cfg parent body) rfl

end TestRoster
