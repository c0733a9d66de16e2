import TestRoster.Proofs.Discovery.Shape

/-!
Resolving a body is the outcome of its account.

The statement follows the definitions: elements of a collection, name arguments, launches, and then
by induction over bodies and statements. Containment at a level is the identity on steps whose
faults have been contained below it, and turns a fault of the statement itself into one finding.
-/
namespace TestRoster

open Finding

namespace Step

theorem ofAccount_ok (strict : Bool) (fs : List Finding) :
    ofAccount strict (.ok fs) = outcome strict fs (.ofFindings fs) := rfl

/-- Reading the tree first, then going on as an account says. -/
theorem ofAccount_bind {α : Type} (strict : Bool) (r : Except Fault α)
    {next : α → Except Fault (List Finding)} {step : α → Step Resolution}
    (h : ∀ a, step a = ofAccount strict (next a)) :
    (ofReading r >>= step) = ofAccount strict (r >>= next) := by
  cases r with
  | error cause => rfl
  | ok a =>
      change andThen _ _ = ofAccount strict (next a)
      simp [andThen, ofReading, h a]

theorem ofAccount_nil (strict : Bool) :
    (pure {} : Step Resolution) = ofAccount strict (.ok []) :=
  (outcome_nil strict _).symm

theorem ofAccount_pure_named (strict : Bool) (name : String) (line : Int) :
    pure (Resolution.named name line) = ofAccount strict (.ok [.name name line]) := by
  cases strict <;> rfl

theorem ofAccount_pure_skipped (strict : Bool) (why : Ambiguity) (line : Int) :
    pure (Resolution.skipped why line) = ofAccount strict (.ok [.ambiguous why line]) := by
  cases strict <;> rfl

end Step

namespace Node

open Step

def behind (strict : Bool) (found : Resolution) (fs : List Finding) : Step Resolution :=
  outcome strict fs (found.extend (.ofFindings fs))

theorem behind_nil (strict : Bool) (found : Resolution) : behind strict found [] = pure found := by
  rw [behind, Resolution.ofFindings_nil, Resolution.extend_nil, outcome_nil]

/-- What is found after findings is found behind both. -/
theorem behind_bind {strict : Bool} {found : Resolution} (fs gs : List Finding)
    {next : Resolution → Step Resolution} (h : ∀ r, next r = behind strict r gs) :
    behind strict found fs >>= next = behind strict found (fs ++ gs) := by
  have hn := h (found.extend (.ofFindings fs))
  rw [behind, Resolution.extend_assoc, ← Resolution.ofFindings_append] at hn
  exact outcome_bind fs hn

theorem extend_ofAccount (strict : Bool) (found : Resolution) (fs : List Finding) :
    found.extend <$> ofAccount strict (.ok fs) = behind strict found fs :=
  outcome_map strict fs _ found.extend

theorem addIssue_eq_extend (found : Resolution) (cause : Fault) (line : Int)
    (warning : LogRecord) :
    found.addIssue ⟨.unexpectedShape cause, line⟩ =
      found.extend (.ofFindings [.fault cause line warning]) := by
  simp [Resolution.addIssue, Resolution.extend, Resolution.ofFindings, name?, issue?]

theorem containElement_eq (cfg : Config) (element : Node) (found : Resolution) (cause : Fault) :
    containElement cfg element found cause =
      behind cfg.strict found [element.elementFault cause] := by
  rw [containElement, contain_eq_outcome, outcome_map,
    addIssue_eq_extend found _ element.line _]
  rfl

theorem containStatement_eq (cfg : Config) (parent : String) (statement : Node)
    (found : Resolution) (cause : Fault) :
    containStatement cfg parent statement found cause =
      behind cfg.strict found [statementFault parent statement cause] := by
  rw [containStatement, contain_eq_outcome, outcome_map,
    addIssue_eq_extend found _ statement.line _]
  rfl

/-- One element: its name, its ambiguity, or its contained fault. -/
theorem searched_step (cfg : Config) (element : Node) (found : Resolution) (line : Int)
    (search : Except Obstacle String) :
    (found.extend <$> ofReading (searched line search)).recover (containElement cfg element found) =
      behind cfg.strict found [element.searchFinding line search] := by
  rcases search with (why | cause) | name
  · have ok : ofReading (searched line (.error (.ambiguous why))) =
        ofAccount cfg.strict (.ok [.ambiguous why line]) :=
      ofAccount_pure_skipped cfg.strict why line
    rw [ok, extend_ofAccount]
    exact recover_outcome (shaped_ambiguous why line) fun strict cause hc => by
      rw [containElement, contain_strict strict _ _ _ hc]
      rfl
  · change (Step.fail cause).recover _ = _
    rw [recover_fail]
    exact containElement_eq cfg element found cause
  · have ok : ofReading (searched line (.ok name)) =
        ofAccount cfg.strict (.ok [.name name line]) :=
      ofAccount_pure_named cfg.strict name line
    rw [ok, extend_ofAccount]
    exact recover_outcome (shaped_name name line) fun strict cause hc => by
      rw [containElement, contain_strict strict _ _ _ hc]
      rfl

/-- That reading an element is a search, which comes upon `finding`. -/
def Searches (read : Node → Except Fault Resolution) (finding : Node → Finding) : Prop :=
  ∀ element, ∃ line search, read element = searched line search ∧
    finding element = element.searchFinding line search

theorem searches_row (cfg : Config) (field : Datum) :
    Searches (readRow cfg field) (rowFinding cfg field) := by
  intro element
  unfold readRow rowFinding
  cases element.elementValue.behindIndirection with
  | compositeValue line elements => exact ⟨line, _, rfl, rfl⟩
  | bare | literal | identifier | memberAccess | invocation | indirection | keyedElement
  | positionalElement | assignment | closure | iteration | declaration | other =>
      exact ⟨element.line, .error (.ambiguous (.rowIsA _)), rfl, rfl⟩

theorem searches_key (cfg : Config) : Searches (readKey cfg) (keyFinding cfg) := by
  intro element
  cases element with
  | keyedElement line key value => exact ⟨line, _, rfl, rfl⟩
  | bare | literal | identifier | memberAccess | invocation | indirection | positionalElement
  | compositeValue | assignment | closure | iteration | declaration | other =>
      exact ⟨_, .error (.ambiguous .keyIsIndex), rfl, rfl⟩

theorem searches_value (cfg : Config) : Searches (readValue cfg) (valueFinding cfg) :=
  fun element => ⟨element.line, _, rfl, rfl⟩

theorem readElements_eq (cfg : Config) {read : Node → Except Fault Resolution}
    {finding : Node → Finding} (h : Searches read finding) (found : Resolution)
    (elements : List Node) :
    readElements cfg read found elements = behind cfg.strict found (elements.map finding) := by
  induction elements generalizing found with
  | nil => exact (behind_nil cfg.strict found).symm
  | cons element rest ih =>
      obtain ⟨line, search, hr, hf⟩ := h element
      rw [readElements, hr, searched_step, List.map_cons, hf]
      exact behind_bind [_] (rest.map finding) ih

theorem eachElement_eq (cfg : Config) (source : Node) {read : Node → Except Fault Resolution}
    {finding : Node → Finding} (h : Searches read finding) :
    source.eachElement cfg read =
      ofAccount cfg.strict (source.collectionFindings cfg finding) := by
  unfold eachElement collectionFindings
  cases source.collection cfg with
  | error obstacle =>
      cases obstacle with
      | ambiguous why => exact ofAccount_pure_skipped cfg.strict why source.line
      | fault cause => rfl
  | ok table =>
      refine ofAccount_bind _ _ fun items => ?_
      rw [readElements_eq cfg h, behind, Resolution.nil_extend]
      rfl

theorem tableNames_eq (cfg : Config) (field : Datum) (source : Node) :
    source.tableNames cfg field =
      ofAccount cfg.strict (source.collectionFindings cfg (rowFinding cfg field)) :=
  eachElement_eq cfg source (searches_row cfg field)

theorem mapKeys_eq (cfg : Config) (source : Node) :
    source.mapKeys cfg = ofAccount cfg.strict (source.collectionFindings cfg (keyFinding cfg)) :=
  eachElement_eq cfg source (searches_key cfg)

theorem elementValues_eq (cfg : Config) (source : Node) :
    source.elementValues cfg =
      ofAccount cfg.strict (source.collectionFindings cfg (valueFinding cfg)) :=
  eachElement_eq cfg source (searches_value cfg)

theorem rangedNames_eq (cfg : Config) (line : Int) (name : Datum) (targets : Datum)
    (values : Sequence) :
    rangedNames cfg line name targets values =
      ofAccount cfg.strict (rangedFindings cfg line name targets values) := by
  unfold rangedNames rangedFindings
  cases values.truthy with
  | false => exact ofAccount_pure_skipped ..
  | true =>
      refine ofAccount_bind _ _ fun among => ?_
      cases among with
      | false => exact ofAccount_pure_skipped ..
      | true =>
          refine ofAccount_bind _ _ fun source => ofAccount_bind _ _ fun first => ?_
          cases first with
          | true => exact mapKeys_eq cfg source
          | false => exact elementValues_eq cfg source

theorem followedName_eq (cfg : Config) (line : Int) (name : Datum) (declared : Node) :
    followedName cfg line name declared =
      ofAccount cfg.strict (followedFindings cfg line name declared) := by
  unfold followedName followedFindings
  rcases (Node.identifier line name declared).follow cfg with (why | cause) | value
  · exact ofAccount_pure_skipped ..
  · rfl
  · cases value with
    | literal line' text => exact ofAccount_bind _ _ fun text => ofAccount_pure_named ..
    | bare | identifier | memberAccess | invocation | indirection | keyedElement
    | positionalElement | compositeValue | assignment | closure | iteration | declaration
    | other => exact ofAccount_bind _ _ fun kind => ofAccount_pure_skipped ..

theorem identifierNames_eq (cfg : Config) (line : Int) (name : Datum) (declared : Node) :
    identifierNames cfg line name declared =
      ofAccount cfg.strict (identifierFindings cfg line name declared) := by
  cases declared with
  | assignment line' targets values ranged =>
      cases ranged with
      | true => exact rangedNames_eq cfg line name targets values
      | false => exact followedName_eq cfg line name _
  | bare | literal | identifier | memberAccess | invocation | indirection | keyedElement
  | positionalElement | compositeValue | closure | iteration | declaration | other =>
      exact followedName_eq cfg line name _

theorem resolveName_eq (cfg : Config) (argument : Node) :
    argument.resolveName cfg = ofAccount cfg.strict (argument.nameFindings cfg) := by
  cases argument with
  | literal line text => exact ofAccount_bind _ _ fun text => ofAccount_pure_named ..
  | memberAccess line target member =>
      refine ofAccount_bind _ _ fun loop => ?_
      cases loop with
      | none => exact ofAccount_pure_skipped ..
      | some values => exact ofAccount_bind _ _ fun source => tableNames_eq cfg member source
  | identifier line name declared => exact identifierNames_eq cfg line name declared
  | bare value => rfl
  | invocation | indirection | keyedElement | positionalElement | compositeValue | assignment
  | closure | iteration | declaration | other => exact ofAccount_pure_skipped ..

theorem unnamedLaunch_eq (cfg : Config) (parent : String) (line : Int) :
    unnamedLaunch cfg parent line =
      ofAccount cfg.strict (.ok (unnamedFindings cfg parent line)) := by
  unfold unnamedLaunch unnamedFindings
  cases cfg.verbose with
  | false => exact ofAccount_pure_skipped ..
  | true =>
      rw [if_pos rfl, if_pos rfl, outcome_say cfg.strict]
      exact outcome_bind _ (ofAccount_pure_skipped cfg.strict .noNameArgument line)

theorem sayUnresolved_eq (strict : Bool) (parent : String) (issues : List Issue) :
    sayUnresolved parent issues = outcome strict (unresolvedNotes parent issues) () := by
  induction issues with
  | nil => exact (outcome_nil strict ()).symm
  | cons issue rest ih =>
      rw [sayUnresolved, outcome_say strict]
      exact outcome_bind _ ih

/-- Names are no obstacle and leave nothing in the log. -/
theorem outcome_name {α : Type} (strict : Bool) (name : String) (line : Int) (fs : List Finding)
    (a : α) : outcome strict (.name name line :: fs) a = outcome strict fs a := by
  cases strict <;> rfl

theorem behind_name (strict : Bool) (found : Resolution) (name : String) (line : Int)
    (fs : List Finding) :
    behind strict (found.add name line) fs = behind strict found (.name name line :: fs) := by
  have split := Resolution.ofFindings_append [.name name line] fs
  rw [List.singleton_append] at split
  rw [behind, behind, outcome_name, split, ← Resolution.extend_assoc, Resolution.add_eq_extend]

/-- Each name is found before what is inside its function, and that before the next name. -/
theorem launchEach_eq {strict : Bool} (parent : String) (line : Int)
    {inside : String → Step Resolution} {within : String → List Finding}
    (h : ∀ name, inside name = ofAccount strict (.ok (within name))) (found : Resolution)
    (names : List String) :
    launchEach parent line inside found names =
      behind strict found (launchedFindings parent line within names) := by
  induction names generalizing found with
  | nil => exact (behind_nil strict found).symm
  | cons segment rest ih =>
      rw [launchEach, h, extend_ofAccount, behind_name]
      exact behind_bind (.name _ line :: within _) _ ih

theorem outcome_cons {α : Type} (strict : Bool) (f : Finding) (fs : List Finding) (a : α) :
    outcome strict (f :: fs) a = outcome strict [f] () >>= fun _ => outcome strict fs a := by
  have h : (outcome strict [f] () >>= fun _ => outcome strict fs a) =
      outcome strict ([f] ++ fs) a := outcome_bind [f] rfl
  exact h.symm

theorem outcome_withoutNames {α : Type} (strict : Bool) (fs : List Finding) (a : α) :
    outcome strict (withoutNames fs) a = outcome strict fs a := by
  induction fs with
  | nil => rfl
  | cons f rest ih =>
      cases f with
      | name name line => exact ih.trans (outcome_name strict name line rest a).symm
      | ambiguous | fault | note =>
          change outcome strict (_ :: withoutNames rest) a = _
          rw [outcome_cons, ih, ← outcome_cons]

theorem ofFindings_withoutNames (fs : List Finding) :
    Resolution.ofFindings (withoutNames fs) = { issues := (Resolution.ofFindings fs).issues } := by
  have names : (withoutNames fs).filterMap name? = [] := by
    rw [List.filterMap_eq_nil_iff]
    intro f hf
    simpa using (List.mem_filter.mp hf).2
  have issues : (withoutNames fs).filterMap issue? = fs.filterMap issue? := by
    rw [withoutNames, List.filterMap_filter]
    congr 1
    funext f
    cases f <;> rfl
  simp [Resolution.ofFindings, names, issues]

theorem ofFindings_unresolvedNotes (parent : String) (issues : List Issue) :
    Resolution.ofFindings (unresolvedNotes parent issues) = {} := by
  simp [Resolution.ofFindings, unresolvedNotes, List.filterMap_map, Function.comp_def, name?,
    issue?]

/-- What is told of a launch: the issues of the search for its names, then the launches. -/
theorem ofFindings_namedFindings (cfg : Config) (parent : String) (line : Int)
    (inside : String → List Finding) (fs : List Finding) :
    Resolution.ofFindings (namedFindings cfg parent line inside fs) =
      Resolution.extend { issues := (Resolution.ofFindings fs).issues }
        (.ofFindings (launchedFindings parent line inside (Resolution.ofFindings fs).names)) := by
  rw [namedFindings, Resolution.ofFindings_append, ofFindings_withoutNames]
  cases names : (Resolution.ofFindings fs).names with
  | nil =>
      rw [if_pos List.isEmpty_nil]
      split
      · rw [ofFindings_unresolvedNotes]
        rfl
      · rfl
  | cons name rest => rfl

theorem launch_eq (cfg : Config) (parent : String) (line : Int)
    {inside : String → Step Resolution} {within : String → List Finding}
    (h : ∀ name, inside name = ofAccount cfg.strict (.ok (within name))) (fs : List Finding) :
    (ofAccount cfg.strict (.ok fs) >>= fun segments => launch cfg parent line segments inside) =
      ofAccount cfg.strict (.ok (namedFindings cfg parent line within fs)) := by
  rw [ofAccount_ok, ofAccount_ok, ← outcome_withoutNames]
  refine outcome_bind _ ?_
  rw [namedFindings, Resolution.ofFindings_append, ofFindings_withoutNames, launch]
  split
  · split
    · rw [sayUnresolved_eq cfg.strict, ofFindings_unresolvedNotes, Resolution.extend_nil]
      exact outcome_map cfg.strict _ () fun _ => _
    · rw [Resolution.ofFindings_nil, Resolution.extend_nil]
      exact (outcome_nil cfg.strict _).symm
  · exact launchEach_eq parent line h _ _

theorem resolveName_launch_eq (cfg : Config) (parent : String) (line : Int) (argument : Node)
    {inside : String → Step Resolution} {within : String → List Finding}
    (h : ∀ name, inside name = ofAccount cfg.strict (.ok (within name))) :
    (argument.resolveName cfg >>= fun segments => launch cfg parent line segments inside) =
      ofAccount cfg.strict
        ((argument.nameFindings cfg).map (namedFindings cfg parent line within)) := by
  rw [resolveName_eq]
  cases argument.nameFindings cfg with
  | error cause => rfl
  | ok fs => exact launch_eq cfg parent line h fs

/-- Containment of a statement: a fault of its own becomes a finding, all else stays. -/
theorem contained_step (cfg : Config) (parent : String) (statement : Node) (found : Resolution)
    {r : Except Fault (List Finding)} (hr : ShapedAccount r) :
    (found.extend <$> ofAccount cfg.strict r).recover
        (containStatement cfg parent statement found) =
      behind cfg.strict found (containedFindings parent statement r) := by
  cases r with
  | error cause => exact containStatement_eq cfg parent statement found cause
  | ok fs =>
      rw [extend_ofAccount]
      refine recover_outcome (hr fs rfl) fun strict cause hc => ?_
      rw [containStatement, contain_strict strict _ _ _ hc]
      rfl

theorem rejectEach_eq (cfg : Config) (parent : String) (found : Resolution) (parts : List Node) :
    rejectEach cfg parent found parts =
      behind cfg.strict found
        (parts.map fun part => statementFault parent part (.notAStatement part.describe)) := by
  induction parts generalizing found with
  | nil => exact (behind_nil cfg.strict found).symm
  | cons part rest ih =>
      rw [rejectEach, containStatement_eq]
      exact behind_bind [_] _ ih

mutual

theorem resolve_eq (cfg : Config) (parent : String) (body : Sequence) :
    resolve cfg parent body = ofAccount cfg.strict (.ok (bodyFindings cfg parent body)) := by
  cases body with
  | nodes statements =>
      rw [resolve, bodyFindings, resolveEach_eq, behind, Resolution.nil_extend]
      rfl
  | lone n =>
      rw [resolve, bodyFindings]
      cases n.parts? with
      | none =>
          rw [containStatement_eq, behind, Resolution.nil_extend]
          rfl
      | some parts =>
          change rejectEach cfg parent {} parts = _
          rw [rejectEach_eq, behind, Resolution.nil_extend]
          rfl

theorem resolveEach_eq (cfg : Config) (parent : String) (found : Resolution)
    (statements : List Node) :
    resolveEach cfg parent found statements =
      behind cfg.strict found (eachFindings cfg parent statements) := by
  cases statements with
  | nil =>
      rw [resolveEach, eachFindings, behind_nil]
  | cons statement rest =>
      rw [resolveEach, eachFindings, resolveStatement_eq,
        contained_step cfg parent statement found (shaped_statementFindings cfg parent statement)]
      exact behind_bind _ _ fun r => resolveEach_eq cfg parent r rest

theorem resolveStatement_eq (cfg : Config) (parent : String) (statement : Node) :
    resolveStatement cfg parent statement =
      ofAccount cfg.strict (statementFindings cfg parent statement) := by
  cases statement with
  | bare value => rfl
  | iteration line source body =>
      rw [resolveStatement, statementFindings]
      exact resolve_eq cfg parent body
  | invocation line callee arguments =>
      rw [resolveStatement, statementFindings]
      split
      · exact resolveLaunch_eq cfg parent line arguments
      · exact ofAccount_nil cfg.strict
  | literal | identifier | memberAccess | indirection | keyedElement | positionalElement
  | compositeValue | assignment | closure | declaration | other =>
      exact ofAccount_nil cfg.strict

theorem resolveLaunch_eq (cfg : Config) (parent : String) (line : Int) (arguments : Sequence) :
    resolveLaunch cfg parent line arguments =
      ofAccount cfg.strict (launchFindings cfg parent line arguments) := by
  match arguments with
  | .nodes [] => exact unnamedLaunch_eq cfg parent line
  | .nodes (argument :: rest) =>
      rw [resolveLaunch, launchFindings]
      exact resolveName_launch_eq cfg parent line argument fun name =>
        resolveFunction_eq cfg name rest
  | .lone n =>
      rw [resolveLaunch, launchFindings]
      split
      · exact unnamedLaunch_eq cfg parent line
      · refine ofAccount_bind _ _ fun argument => ?_
        exact resolveName_launch_eq cfg parent line argument fun name =>
          ofAccount_nil cfg.strict

theorem resolveFunction_eq (cfg : Config) (parent : String) (rest : List Node) :
    resolveFunction cfg parent rest =
      ofAccount cfg.strict (.ok (functionFindings cfg parent rest)) := by
  match rest with
  | .closure line body :: _ =>
      rw [resolveFunction, functionFindings]
      exact resolve_eq cfg parent body
  | [] => exact ofAccount_nil cfg.strict
  | .bare _ :: _ | .literal .. :: _ | .identifier .. :: _ | .memberAccess .. :: _
  | .invocation .. :: _ | .indirection .. :: _ | .keyedElement .. :: _
  | .positionalElement .. :: _ | .compositeValue .. :: _ | .assignment .. :: _
  | .iteration .. :: _ | .declaration .. :: _ | .other .. :: _ =>
      exact ofAccount_nil cfg.strict

end

end Node

end TestRoster
