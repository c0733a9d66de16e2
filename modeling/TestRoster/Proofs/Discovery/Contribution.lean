import Mathlib.Tactic.Choose
import TestRoster.Proofs.Discovery.Containment
import TestRoster.Proofs.Discovery.Origin

/-!
Every launch and every row is accounted for once.

An argument draws its names from a collection, or it is looked at as a whole. In the first case
every element of the collection contributes one name or one issue, and its contribution depends on
nothing but the element; in the second case the argument contributes one name or one issue itself. A
launch therefore leaves no trace only if the collection is empty.
-/
namespace TestRoster

/-- What an element of a collection, or an argument as a whole, comes to. -/
inductive Contribution where
  | name (text : String) (line : Int)
  | issue (i : Issue)

namespace Contribution

def name? : Contribution → Option (String × Int)
  | .name text line => some (text, line)
  | .issue _ => none

def issue? : Contribution → Option Issue
  | .name .. => none
  | .issue i => some i

end Contribution

def Resolution.ofContributions (cs : List Contribution) : Resolution where
  names := (cs.filterMap Contribution.name?).map Prod.fst
  lines := (cs.filterMap Contribution.name?).map Prod.snd
  issues := cs.filterMap Contribution.issue?

theorem Resolution.length_ofContributions (cs : List Contribution) :
    (ofContributions cs).names.length + (ofContributions cs).issues.length = cs.length := by
  induction cs with
  | nil => rfl
  | cons c rest ih =>
      simp only [ofContributions, List.length_map, List.filterMap_cons] at ih ⊢
      cases c with
      | name text line =>
          simp only [Contribution.name?, Contribution.issue?, List.length_cons]
          omega
      | issue i =>
          simp only [Contribution.name?, Contribution.issue?, List.length_cons]
          omega

/-- What an argument reads off the elements of a collection. -/
inductive Drawing where
  | field (member : Datum)
  | keys
  | values

inductive Node.RangeVariable where
  | key
  | value
  deriving DecidableEq, Repr

/-- The variable of a range clause with these targets that a name stands for. -/
def Node.rangeVariable? (targets name : Datum) : Except Fault (Option Node.RangeVariable) := do
  match ← isRanged? targets name with
  | false => return none
  | true => return some (if ← isFirst? targets name then .key else .value)

def Node.RangeVariable.drawing : Node.RangeVariable → Drawing
  | .key => .keys
  | .value => .values

/-- That an argument draws its names from the collection that `source` leads to: it is a field of
the value of a range clause, or the key or value itself. -/
inductive Node.Draws (cfg : Config) : Node → Drawing → Node → Prop where
  | field {line target member values source}
      (loop : target.loopBinding cfg.maxReferenceDepth = .ok (some values))
      (first : values.get? 0 = .ok source) :
      Draws cfg (.memberAccess line target member) (.field member) source
  | ranged {line name line' targets values boundAs source} (held : values.truthy)
      (bound : rangeVariable? targets name = .ok (some boundAs))
      (first : values.get? 0 = .ok source) :
      Draws cfg (.identifier line name (.assignment line' targets values true)) boundAs.drawing
        source

/-- That an argument draws its names from a collection of these elements. -/
def Node.DrawsFrom (cfg : Config) (argument : Node) (drawing : Drawing) (elements : List Node) :
    Prop :=
  ∃ source table, argument.Draws cfg drawing source ∧ source.collection cfg = .ok table ∧
    table.elementList? = .ok elements

namespace Finding

def contribution? : Finding → Option Contribution
  | .name text line => some (.name text line)
  | .ambiguous why line => some (.issue ⟨.ambiguous why, line⟩)
  | .fault cause line _ => some (.issue ⟨.unexpectedShape cause, line⟩)
  | .note _ => none

theorem ofContributions_filterMap (fs : List Finding) :
    Resolution.ofContributions (fs.filterMap contribution?) = .ofFindings fs := by
  have names : (fs.filterMap contribution?).filterMap Contribution.name? =
      fs.filterMap name? := by
    rw [List.filterMap_filterMap]
    congr 1
    funext f
    cases f <;> rfl
  have issues : (fs.filterMap contribution?).filterMap Contribution.issue? =
      fs.filterMap issue? := by
    rw [List.filterMap_filterMap]
    congr 1
    funext f
    cases f <;> rfl
  simp only [Resolution.ofContributions, Resolution.ofFindings, names, issues]

end Finding

namespace Node

open Finding

def Contributes (f : Finding) : Prop :=
  ∃ c, f.contribution? = some c

theorem contributes_searchFinding (element : Node) (line : Int) (search : Except Obstacle String) :
    Contributes (element.searchFinding line search) := by
  rcases search with (why | cause) | name <;> exact ⟨_, rfl⟩

end Node

def Drawing.reads (cfg : Config) : Drawing → Node → Finding
  | .field member => Node.rowFinding cfg member
  | .keys => Node.keyFinding cfg
  | .values => Node.valueFinding cfg

namespace Node

open Finding

theorem contributes_reads (cfg : Config) (drawing : Drawing) (element : Node) :
    Contributes (drawing.reads cfg element) := by
  cases drawing with
  | field member =>
      obtain ⟨line, search, -, same⟩ := searches_row cfg member element
      rw [Drawing.reads, same]
      exact contributes_searchFinding element line search
  | keys =>
      obtain ⟨line, search, -, same⟩ := searches_key cfg element
      rw [Drawing.reads, same]
      exact contributes_searchFinding element line search
  | values => exact contributes_searchFinding element _ _

theorem bind_of_ok {ε α β : Type} {r : Except ε α} {a : α} (h : r = .ok a) (next : α → Except ε β) :
    (r >>= next) = next a := by
  rw [h]
  rfl

theorem rangeVariable?_eq_some_iff {targets name : Datum} {boundAs : RangeVariable} :
    rangeVariable? targets name = .ok (some boundAs) ↔
      isRanged? targets name = .ok true ∧ isFirst? targets name = .ok (boundAs == .key) := by
  rw [rangeVariable?]
  rcases isRanged? targets name with _ | (_ | _)
  · simp [Bind.bind, Except.bind]
  · simp [Bind.bind, Except.bind, Pure.pure, Except.pure]
  · rcases isFirst? targets name with _ | (_ | _) <;> cases boundAs <;>
      simp [Bind.bind, Except.bind, Pure.pure, Except.pure]

/-- An argument that draws its names reads the elements of the collection. -/
theorem Draws.nameFindings_eq {cfg : Config} {argument : Node} {drawing : Drawing} {source : Node}
    (h : argument.Draws cfg drawing source) :
    argument.nameFindings cfg = source.collectionFindings cfg (drawing.reads cfg) := by
  cases h with
  | field loop first => exact (bind_of_ok loop _).trans (bind_of_ok first _)
  | @ranged _ _ _ _ _ boundAs _ held bound first =>
      obtain ⟨among, heads⟩ := rangeVariable?_eq_some_iff.mp bound
      rw [nameFindings, identifierFindings, rangedFindings, held]
      refine (bind_of_ok among _).trans ((bind_of_ok first _).trans ((bind_of_ok heads _).trans ?_))
      cases boundAs <;> rfl

/-- That an account is one name or issue, if it ends well. -/
def Single (r : Except Fault (List Finding)) : Prop :=
  ∀ fs, r = .ok fs → ∃ f, fs = [f] ∧ Contributes f

theorem single_name (text : String) (line : Int) : Single (.ok [.name text line]) := by
  rintro fs ⟨⟩
  exact ⟨_, rfl, _, rfl⟩

theorem single_ambiguous (why : Ambiguity) (line : Int) : Single (.ok [.ambiguous why line]) := by
  rintro fs ⟨⟩
  exact ⟨_, rfl, _, rfl⟩

theorem single_error (cause : Fault) : Single (.error cause) := by
  rintro fs ⟨⟩

theorem single_bind {α : Type} {reading : Except Fault α}
    {next : α → Except Fault (List Finding)} (h : ∀ a, reading = .ok a → Single (next a)) :
    Single (reading >>= next) := by
  intro fs same
  obtain ⟨a, read, found⟩ := exists_of_bind_ok same
  exact h a read fs found

/-- Where no collection is found, the reason is the one issue. -/
theorem single_collectionFindings {cfg : Config} {source : Node} {read : Node → Finding}
    (h : ∀ table, source.collection cfg ≠ .ok table) :
    Single (source.collectionFindings cfg read) := by
  unfold collectionFindings
  split
  · exact absurd ‹_› (h _)
  · exact single_ambiguous _ _
  · exact single_error _

theorem single_followedFindings (cfg : Config) (line : Int) (name : Datum) (declared : Node) :
    Single (followedFindings cfg line name declared) := by
  unfold followedFindings
  split
  · exact single_bind fun text _ => single_name _ _
  · exact single_bind fun kind _ => single_ambiguous _ _
  · exact single_ambiguous _ _
  · exact single_error _

/-- An argument that does not draw its names from a collection is looked at as a whole. -/
theorem single_nameFindings {cfg : Config} {argument : Node}
    (h : ∀ drawing source table, argument.Draws cfg drawing source →
      source.collection cfg ≠ .ok table) :
    Single (argument.nameFindings cfg) := by
  cases argument with
  | literal line text => exact single_bind fun text _ => single_name _ _
  | memberAccess line target member =>
      refine single_bind fun loop bound => ?_
      cases loop with
      | none => exact single_ambiguous _ _
      | some values =>
          exact single_bind fun source first =>
            single_collectionFindings fun table => h _ source table (.field bound first)
  | identifier line name declared =>
      change Single (identifierFindings cfg line name declared)
      unfold identifierFindings
      split
      · unfold rangedFindings
        split
        · exact single_ambiguous _ _
        · rename_i line' targets values held
          refine single_bind fun among ranged => ?_
          cases among with
          | false => exact single_ambiguous _ _
          | true =>
              refine single_bind fun source found => single_bind fun first heads => ?_
              have draws (v : RangeVariable) (same : first = (v == .key)) (table : Node) :
                  source.collection cfg ≠ .ok table :=
                h v.drawing source table (.ranged (by simpa using held)
                  (rangeVariable?_eq_some_iff.mpr ⟨ranged, same ▸ heads⟩) found)
              cases first with
              | true => exact single_collectionFindings (draws .key rfl)
              | false => exact single_collectionFindings (draws .value rfl)
      · exact single_followedFindings cfg line name _
  | bare value => exact single_error _
  | invocation | indirection | keyedElement | positionalElement | compositeValue | assignment
  | closure | iteration | declaration | other => exact single_ambiguous _ _

/-- A search for names succeeds with what its account tells. -/
theorem resolveName_tolerant_eq_ok {cfg : Config} {argument : Node} {r : Resolution} :
    (argument.resolveName (cfg.withStrict false)).result = .ok r ↔
      ∃ fs, argument.nameFindings cfg = .ok fs ∧ r = .ofFindings fs := by
  rw [resolveName_eq, nameFindings_withStrict]
  cases argument.nameFindings cfg with
  | error cause =>
      constructor
      · intro h
        cases h
      · rintro ⟨fs, h, -⟩
        cases h
  | ok fs =>
      constructor
      · intro h
        exact ⟨fs, rfl, (Except.ok.inj h).symm⟩
      · rintro ⟨fs', h, rfl⟩
        obtain rfl := Except.ok.inj h
        rfl

theorem DrawsFrom.nameFindings_eq {cfg : Config} {argument : Node} {drawing : Drawing}
    {elements : List Node} (h : argument.DrawsFrom cfg drawing elements) :
    argument.nameFindings cfg = .ok (elements.map (drawing.reads cfg)) := by
  obtain ⟨source, table, draws, found, listed⟩ := h
  rw [draws.nameFindings_eq, collectionFindings, found]
  exact bind_of_ok listed _

theorem single_of_not_drawsFrom {cfg : Config} {argument : Node}
    (h : ∀ drawing elements, ¬ argument.DrawsFrom cfg drawing elements) :
    Single (argument.nameFindings cfg) := by
  by_cases located : ∃ drawing source table, argument.Draws cfg drawing source ∧
      source.collection cfg = .ok table
  · -- the elements cannot be listed, so the search fails
    obtain ⟨drawing, source, table, draws, found⟩ := located
    rw [draws.nameFindings_eq, collectionFindings, found]
    exact single_bind fun elements listed =>
      absurd ⟨source, table, draws, found, listed⟩ (h drawing elements)
  · exact single_nameFindings fun drawing source table draws found =>
      located ⟨drawing, source, table, draws, found⟩

/-- That findings leave neither a name nor an issue. -/
def Traceless (fs : List Finding) : Prop :=
  (Resolution.ofFindings fs).names = [] ∧ (Resolution.ofFindings fs).issues = []

/-- A search that leaves no trace went through a collection without elements. -/
theorem Traceless.drawsFrom_nil {cfg : Config} {argument : Node} {fs : List Finding}
    (h : Traceless fs) (found : argument.nameFindings cfg = .ok fs) :
    ∃ drawing, argument.DrawsFrom cfg drawing [] := by
  obtain ⟨noNames, noIssues⟩ := h
  have count := Resolution.length_ofContributions (fs.filterMap contribution?)
  rw [ofContributions_filterMap, noNames, noIssues] at count
  by_cases draws : ∃ drawing elements, argument.DrawsFrom cfg drawing elements
  · obtain ⟨drawing, elements, draws⟩ := draws
    rw [draws.nameFindings_eq] at found
    obtain rfl := Except.ok.inj found
    cases elements with
    | nil => exact ⟨drawing, draws⟩
    | cons element rest =>
        obtain ⟨c, same⟩ := contributes_reads cfg drawing element
        rw [List.map_cons, List.filterMap_cons, same] at count
        cases count
  · obtain ⟨f, rfl, c, same⟩ := single_of_not_drawsFrom
      (fun drawing elements d => draws ⟨drawing, elements, d⟩) fs found
    rw [List.filterMap_cons, same] at count
    cases count

theorem not_traceless_unnamedFindings (cfg : Config) (parent : String) (line : Int) :
    ¬ Traceless (unnamedFindings cfg parent line) := by
  rintro ⟨-, noIssues⟩
  unfold unnamedFindings at noIssues
  split at noIssues <;> cases noIssues

/-- A launch under some name leaves that name. -/
theorem Traceless.of_namedFindings {cfg : Config} {parent : String} {line : Int}
    {inside : String → List Finding} {fs : List Finding}
    (h : Traceless (namedFindings cfg parent line inside fs)) : Traceless fs := by
  obtain ⟨noNames, noIssues⟩ := h
  rw [ofFindings_namedFindings] at noNames noIssues
  have told := (List.append_eq_nil_iff.mp noIssues).1
  cases names : (Resolution.ofFindings fs).names with
  | nil => exact ⟨names, told⟩
  | cons name rest =>
      rw [names] at noNames
      cases noNames

/-- What is read as an argument where no arguments stand is a bare value, and names nothing. -/
theorem nameFindings_of_lone {cfg : Config} {n argument : Node}
    (first : (Sequence.lone n).get? 0 = .ok argument) :
    ∃ cause, argument.nameFindings cfg = .error cause := by
  have listed := Sequence.mem_members_of_get? first
  cases n with
  | bare d =>
      simp only [Sequence.members, parts?] at listed
      cases parts : d.parts? with
      | none => simp [parts] at listed
      | some ds =>
          simp only [parts, Option.map_some, Option.getD_some, List.mem_map] at listed
          obtain ⟨part, -, rfl⟩ := listed
          exact ⟨_, rfl⟩
  | literal | identifier | memberAccess | invocation | indirection | keyedElement
  | positionalElement | compositeValue | assignment | closure | iteration | declaration | other =>
      cases first

theorem Traceless.of_launchFindings {cfg : Config} {parent : String} {line : Int}
    {arguments : Sequence} {fs : List Finding}
    (found : launchFindings cfg parent line arguments = .ok fs) (h : Traceless fs) :
    ∃ argument rest drawing, arguments = .nodes (argument :: rest) ∧
      argument.DrawsFrom cfg drawing [] := by
  match arguments with
  | .nodes [] =>
      obtain rfl := Except.ok.inj found
      exact absurd h (not_traceless_unnamedFindings cfg parent line)
  | .nodes (argument :: rest) =>
      rw [launchFindings] at found
      cases search : argument.nameFindings cfg with
      | error cause =>
          rw [search] at found
          cases found
      | ok gs =>
          rw [search] at found
          obtain rfl := Except.ok.inj found
          obtain ⟨drawing, draws⟩ := h.of_namedFindings.drawsFrom_nil search
          exact ⟨argument, rest, drawing, rfl, draws⟩
  | .lone n =>
      rw [launchFindings] at found
      split at found
      · obtain rfl := Except.ok.inj found
        exact absurd h (not_traceless_unnamedFindings cfg parent line)
      · obtain ⟨argument, first, found⟩ := exists_of_bind_ok found
        obtain ⟨cause, failed⟩ := nameFindings_of_lone first
        rw [failed] at found
        cases found

/-- A launch that leaves no trace went through a collection without elements. -/
theorem Traceless.of_bodyFindings {cfg : Config} {parent : String} {line : Int} {callee : Node}
    {arguments : Sequence} (launches : callee.isLaunch cfg)
    (h : Traceless (bodyFindings cfg parent (.nodes [.invocation line callee arguments]))) :
    ∃ argument rest drawing, arguments = .nodes (argument :: rest) ∧
      argument.DrawsFrom cfg drawing [] := by
  rw [bodyFindings, eachFindings, eachFindings, List.append_nil, statementFindings,
    if_pos launches] at h
  cases found : launchFindings cfg parent line arguments with
  | error cause =>
      -- the fault is contained, as an issue
      rw [found] at h
      cases h.2
  | ok fs =>
      rw [found] at h
      exact h.of_launchFindings found

end Node

/-- Every launch and every row is accounted for once. Where an argument draws its names from a
collection, each element gives one name or one issue, in order and whatever the other elements are;
any other argument gives one name or one issue. A launch that leaves neither goes through a
collection without elements. -/
theorem every_row_is_accounted_for (cfg : Config) :
    ∃ contribution : Drawing → Node → Contribution,
      (∀ (argument : Node) (r : Resolution),
        (argument.resolveName (cfg.withStrict false)).result = .ok r →
          (∀ drawing elements, argument.DrawsFrom cfg drawing elements →
            r = .ofContributions (elements.map (contribution drawing)) ∧
              r.names.length + r.issues.length = elements.length) ∧
          ((∀ drawing elements, ¬ argument.DrawsFrom cfg drawing elements) →
            (∃ c, r = .ofContributions [c]) ∧ r.names.length + r.issues.length = 1)) ∧
      ∀ (parent : String) (line : Int) (callee : Node) (arguments : Sequence) (r : Resolution),
        callee.isLaunch cfg →
        (Node.resolve (cfg.withStrict false) parent
          (.nodes [.invocation line callee arguments])).result = .ok r →
        r.names = [] → r.issues = [] →
          ∃ argument rest drawing, arguments = .nodes (argument :: rest) ∧
            argument.DrawsFrom cfg drawing [] := by
  choose contribution same using Node.contributes_reads cfg
  refine ⟨contribution, fun argument r resolved => ?_, ?_⟩
  · obtain ⟨fs, found, rfl⟩ := Node.resolveName_tolerant_eq_ok.mp resolved
    constructor
    · intro drawing elements draws
      have reads : fs.filterMap Finding.contribution? = elements.map (contribution drawing) := by
        obtain rfl := Except.ok.inj (found.symm.trans draws.nameFindings_eq)
        have each : Finding.contribution? ∘ drawing.reads cfg = some ∘ contribution drawing :=
          funext (same drawing)
        rw [List.filterMap_map, each, List.filterMap_eq_map]
      rw [← Finding.ofContributions_filterMap, reads]
      exact ⟨rfl, (Resolution.length_ofContributions _).trans (List.length_map _)⟩
    · intro drawsNot
      obtain ⟨f, rfl, c, one⟩ := Node.single_of_not_drawsFrom drawsNot fs found
      have reads : [f].filterMap Finding.contribution? = [c] := by
        rw [List.filterMap_cons, one]
        rfl
      rw [← Finding.ofContributions_filterMap, reads]
      exact ⟨⟨c, rfl⟩, Resolution.length_ofContributions [c]⟩
  · intro parent line callee arguments r launches resolved noNames noIssues
    rw [Node.resolve_tolerant] at resolved
    obtain rfl := Except.ok.inj resolved
    exact Node.Traceless.of_bodyFindings launches ⟨noNames, noIssues⟩

/-- The keys of a table with two elements, and of an empty one. -/
theorem every_key_is_accounted_for :
    let cfg : Config := {}
    let ranged (elements : List Node) : Node := .identifier 2 (.str "k")
      (.assignment 1 (.list [.str "k"]) (.nodes [.compositeValue 1 (.nodes elements)]) true)
    let keyed := Node.keyedElement 4 (.literal 4 (.str "\x60a\x60")) .null
    let positional := Node.positionalElement 5 .null
    let launch : Node := .invocation 6 (.memberAccess 6 .null (.str "Run")) (.nodes [ranged []])
    (∃ contribution : Drawing → Node → Contribution,
      (⟨["a"], [4], [⟨.ambiguous .keyIsIndex, 5⟩]⟩ : Resolution) =
        .ofContributions ([keyed, positional].map (contribution .keys))) ∧
      ∃ argument rest drawing, Sequence.nodes [ranged []] = .nodes (argument :: rest) ∧
        argument.DrawsFrom cfg drawing [] ∧
        (Node.resolve cfg "TestA" (.nodes [launch])).result = .ok {} := by
  intro cfg ranged keyed positional launch
  obtain ⟨contribution, accounted, traceless⟩ := every_row_is_accounted_for cfg
  have draws : (ranged [keyed, positional]).DrawsFrom cfg .keys [keyed, positional] := by
    have bound : Node.rangeVariable? (.list [.str "k"]) (.str "k") = .ok (some .key) := rfl
    exact ⟨.compositeValue 1 (.nodes [keyed, positional]), _, .ranged rfl bound rfl, rfl, rfl⟩
  constructor
  · exact ⟨contribution, ((accounted (ranged [keyed, positional]) _ rfl).1 .keys _ draws).1⟩
  · obtain ⟨argument, rest, drawing, same, empty⟩ :=
      traceless "TestA" 6 (.memberAccess 6 .null (.str "Run")) (.nodes [ranged []]) {} rfl rfl rfl
        rfl
    exact ⟨argument, rest, drawing, same, empty, rfl⟩

end TestRoster
