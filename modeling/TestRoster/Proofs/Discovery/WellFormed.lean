import Mathlib.Data.List.TakeWhile
import TestRoster.Proofs.Discovery.Origin
import TestRoster.Proofs.Discovery.Strictness

/-!
Well-formed trees are discovered without a fault.

In a well-formed tree every place that a discovery looks into holds what belongs there, also the
places behind the declarations of identifiers. Each step of a discovery then ends with a value or
with the reason why there is none, and the values it passes on are well formed again.
-/
namespace TestRoster

open Finding

namespace Node

/-- That every place of a node holds what belongs there. Null may stand for a declaration and for
the target of a selector; callees and the sources of loops are not looked into. -/
inductive WellFormed : Node → Prop where
  | literal {line text s} (denotes : Quoted.stripQuotes text = .ok s) :
      WellFormed (.literal line (.str text))
  | identifier {line name declared} (h : declared ≠ null → WellFormed declared) :
      WellFormed (.identifier line name declared)
  | memberAccess {line target member} (h : target ≠ null → WellFormed target) :
      WellFormed (.memberAccess line target member)
  | invocation {line callee arguments} (each : ∀ a ∈ arguments, WellFormed a) :
      WellFormed (.invocation line callee (.nodes arguments))
  | indirection {line target} (h : WellFormed target) : WellFormed (.indirection line target)
  | keyedElement {line key value} (hk : WellFormed key) (hv : WellFormed value) :
      WellFormed (.keyedElement line key value)
  | positionalElement {line value} (h : WellFormed value) :
      WellFormed (.positionalElement line value)
  | compositeValue {line elements} (known : ∀ e ∈ elements, e.isRowElement)
      (each : ∀ e ∈ elements, WellFormed e) : WellFormed (.compositeValue line (.nodes elements))
  | assignment {line names values ranged} (each : ∀ v ∈ values, WellFormed v) :
      WellFormed (.assignment line (.list names) (.nodes values) ranged)
  | closure {line statements} (each : ∀ s ∈ statements, WellFormed s) :
      WellFormed (.closure line (.nodes statements))
  | iteration {line source statements} (each : ∀ s ∈ statements, WellFormed s) :
      WellFormed (.iteration line source (.nodes statements))
  | declaration {line name statements receiver} (each : ∀ s ∈ statements, WellFormed s) :
      WellFormed (.declaration line name (.nodes statements) receiver)
  | other {line nodeType text} : WellFormed (.other line nodeType text)

end Node

/-- That reading a tree gives a value with this property. -/
def Succeeds {α : Type} (P : α → Prop) (r : Except Fault α) : Prop :=
  ∃ a, r = .ok a ∧ P a

/-- That an expression leads to a value with this property, or to none for a reason that is no
fault. -/
inductive Answers {α : Type} (P : α → Prop) : Except Obstacle α → Prop where
  | ok {a} (h : P a) : Answers P (.ok a)
  | ambiguous {why} : Answers P (.error (.ambiguous why))

section

variable {α β : Type} {P : α → Prop} {Q : β → Prop}

theorem Succeeds.ok {a : α} (h : P a) : Succeeds P (.ok a) :=
  ⟨a, rfl, h⟩

theorem Succeeds.mono {P' : α → Prop} {r : Except Fault α} (h : Succeeds P r)
    (weaker : ∀ a, P a → P' a) : Succeeds P' r := by
  obtain ⟨a, rfl, ha⟩ := h
  exact .ok (weaker a ha)

theorem Succeeds.bind {r : Except Fault α} {next : α → Except Fault β} (h : Succeeds P r)
    (each : ∀ a, P a → Succeeds Q (next a)) : Succeeds Q (r >>= next) := by
  obtain ⟨a, rfl, ha⟩ := h
  exact each a ha

theorem Answers.bind {r : Except Obstacle α} {next : α → Except Obstacle β} (h : Answers P r)
    (each : ∀ a, P a → Answers Q (next a)) : Answers Q (r >>= next) := by
  cases h with
  | ok ha => exact each _ ha
  | ambiguous => exact .ambiguous

theorem Succeeds.orFault {r : Except Fault α} (h : Succeeds P r) :
    Answers P (Obstacle.orFault r) := by
  obtain ⟨a, rfl, ha⟩ := h
  exact .ok ha

end

namespace Node

variable {cfg : Config} {n : Node}

theorem WellFormed.succeeds_kind? (h : n.WellFormed) : Succeeds (fun _ => True) n.kind? := by
  cases h <;> exact .ok trivial

theorem WellFormed.behindIndirection (h : n.WellFormed) : n.behindIndirection.WellFormed := by
  cases n with
  | indirection line target =>
      cases h with
      | indirection h => exact h
  | bare | literal | identifier | memberAccess | invocation | keyedElement | positionalElement
  | compositeValue | assignment | closure | iteration | declaration | other => exact h

theorem WellFormed.elementValue (h : n.WellFormed) : n.elementValue.WellFormed := by
  cases n with
  | keyedElement line key value =>
      cases h with
      | keyedElement hk hv => exact hv
  | positionalElement line value =>
      cases h with
      | positionalElement h => exact h
  | bare | literal | identifier | memberAccess | invocation | indirection | compositeValue
  | assignment | closure | iteration | declaration | other => exact h

theorem succeeds_get? {items : List Node} {index : Nat} (h : index < items.length) :
    Succeeds (· ∈ items) ((Sequence.nodes items).get? index) := by
  rw [Sequence.get?, Sequence.partAt?, List.getElem?_eq_getElem h]
  exact .ok (List.getElem_mem h)

/-- A binding of listed names gives one of its values, or none. -/
theorem succeeds_valueFor? (names : List Datum) (values : List Node) (ranged : Bool)
    (name : Datum) :
    Succeeds (fun v => v = null ∨ v ∈ values)
      (valueFor? (.list names) (.nodes values) ranged name) := by
  unfold valueFor?
  split
  · exact .ok (.inl rfl)
  · cases place : names.findIdx? (·.same name) with
    | none =>
        rw [Datum.placeIn?, place]
        exact .ok (.inl rfl)
    | some index =>
        have inside : index < names.length := (List.findIdx?_eq_some_iff_findIdx_eq.mp place).1
        rw [Datum.placeIn?, place]
        change Succeeds _ (if values.length = names.length then _ else _)
        split
        · rename_i count
          exact (succeeds_get? (by omega)).mono fun v held => .inr held
        · exact .ok (.inl rfl)

theorem identifier_ne_null {line : Int} {name : Datum} {declared : Node} :
    Node.identifier line name declared ≠ null := by
  simp [null]

theorem assignment_ne_null {line : Int} {targets : Datum} {values : Sequence} {ranged : Bool} :
    Node.assignment line targets values ranged ≠ null := by
  simp [null]

theorem WellFormed.declared {line : Int} {name : Datum} {declared : Node}
    (h : (Node.identifier line name declared).WellFormed) :
    declared ≠ null → declared.WellFormed := by
  cases h with
  | identifier h => exact h

section

variable {line : Int} {targets : Datum} {values : Sequence} {ranged : Bool}

theorem WellFormed.binding (h : (Node.assignment line targets values ranged).WellFormed) :
    ∃ names items, targets = .list names ∧ values = .nodes items ∧ ∀ v ∈ items, v.WellFormed := by
  cases h with
  | assignment each => exact ⟨_, _, rfl, rfl, each⟩

theorem WellFormed.succeeds_bound (h : (Node.assignment line targets values ranged).WellFormed)
    (name : Datum) :
    Succeeds (fun v => v ≠ null → v.WellFormed) (valueFor? targets values ranged name) := by
  obtain ⟨names, items, rfl, rfl, each⟩ := h.binding
  refine (succeeds_valueFor? names items ranged name).mono fun v held bound => ?_
  exact each v (held.resolve_left bound)

end

/-- Following an expression ends at a well-formed node. -/
theorem answers_followFrom {depth : Nat} (h : n.WellFormed) :
    Answers WellFormed (n.followFrom depth) := by
  -- the faults of a step are those of reading the binding or its kind, and neither occurs
  fun_induction followFrom depth n with
  | case1 | case2 | case3 | case5 | case7 | case9 => exact .ambiguous
  | case4 line name depth line' targets values ranged unranged cause failed =>
      obtain ⟨v, found, -⟩ := (h.declared assignment_ne_null).succeeds_bound name
      cases failed.symm.trans found
  | case6 line name depth line' targets values ranged unranged v bound found ih =>
      obtain ⟨v', found', wellFormed⟩ := (h.declared assignment_ne_null).succeeds_bound name
      obtain rfl := Except.ok.inj (found.symm.trans found')
      exact ih (wellFormed bound).behindIndirection
  | case8 line name depth declared bound unassigned cause failed =>
      obtain ⟨kind, found, -⟩ := (h.declared bound).succeeds_kind?
      cases failed.symm.trans found
  | case10 => exact .ok h

theorem answers_follow (cfg : Config) (h : n.WellFormed) : Answers WellFormed (n.follow cfg) :=
  answers_followFrom h.behindIndirection

/-- That a node is a composite value of well-formed elements. -/
def IsTable (n : Node) : Prop :=
  ∃ line elements, n = .compositeValue line (.nodes elements) ∧
    ∀ e ∈ elements, e.isRowElement ∧ e.WellFormed

theorem answers_collection (cfg : Config) (h : n.WellFormed) :
    Answers IsTable (n.collection cfg) := by
  refine (answers_follow cfg h).bind fun m hm => ?_
  cases hm with
  | compositeValue known each => exact .ok ⟨_, _, rfl, fun e he => ⟨known e he, each e he⟩⟩
  | _ => exact .ambiguous

theorem succeeds_literalText? {text s : String} (denotes : Quoted.stripQuotes text = .ok s) :
    Succeeds (fun _ => True) (literalText? (.str text)) := by
  rw [literalText?, denotes]
  exact .ok trivial

theorem answers_literalValue (cfg : Config) (h : n.WellFormed) :
    Answers (fun _ => True) (n.literalValue cfg) := by
  refine (answers_follow cfg h).bind fun m hm => ?_
  cases hm with
  | literal denotes => exact (succeeds_literalText? denotes).orFault
  | _ => exact .ambiguous

theorem succeeds_keyName? (h : n.WellFormed) : Succeeds (fun _ => True) n.keyName? := by
  cases h with
  | literal denotes =>
      rw [keyName?, literalText?, denotes]
      exact .ok trivial
  | _ => exact .ok trivial

theorem answers_positionName (cfg : Config) (h : n.WellFormed) :
    Answers (fun _ => True) (n.positionName cfg) := by
  unfold positionName
  split
  · exact .ambiguous
  · exact .ambiguous
  · exact answers_literalValue cfg h

theorem answers_nameAmong (cfg : Config) (field : Datum) {elements : List Node}
    (each : ∀ e ∈ elements, e.WellFormed) :
    Answers (fun _ => True) (nameAmong cfg field elements) := by
  induction elements with
  | nil => exact .ambiguous
  | cons e rest ih =>
      obtain ⟨first, later⟩ := List.forall_mem_cons.mp each
      cases e with
      | keyedElement line key value =>
          cases first with
          | keyedElement hk hv =>
              obtain ⟨name, named, -⟩ := succeeds_keyName? hk
              rw [nameAmong, named]
              dsimp only
              split
              · exact answers_literalValue cfg hv
              · exact ih later
      | positionalElement line value => exact answers_positionName cfg first.elementValue
      | bare | literal | identifier | memberAccess | invocation | indirection | compositeValue
      | assignment | closure | iteration | declaration | other =>
          exact answers_positionName cfg first

theorem forM_checkRowElement {elements : List Node} (known : ∀ e ∈ elements, e.isRowElement) :
    elements.forM checkRowElement = .ok () := by
  induction elements with
  | nil => rfl
  | cons e rest ih =>
      obtain ⟨first, later⟩ := List.forall_mem_cons.mp known
      have accepted : checkRowElement e = .ok () := if_pos first
      rw [List.forM_eq_forM, List.forM_cons, accepted]
      exact ih later

/-- Where every element is of a known shape, only the names of the row matter. -/
theorem rowName_of_known {row : Node} {elements : List Node}
    (listed : row.elementList? = .ok elements) (known : ∀ e ∈ elements, e.isRowElement)
    (cfg : Config) (field : Datum) : row.rowName cfg field = nameAmong cfg field elements := by
  rw [rowName, listed]
  change (Obstacle.orFault (elements.forM checkRowElement) >>= fun _ => _) = _
  rw [forM_checkRowElement known]
  rfl

theorem answers_rowName (cfg : Config) (field : Datum) (h : n.IsTable) :
    Answers (fun _ => True) (n.rowName cfg field) := by
  obtain ⟨line, elements, rfl, each⟩ := h
  rw [rowName_of_known rfl fun e he => (each e he).1]
  exact answers_nameAmong cfg field fun e he => (each e he).2

/-- That a range clause has a source, which is well formed. -/
def Sourced (values : Sequence) : Prop :=
  ∃ source rest, values = .nodes (source :: rest) ∧ source.WellFormed

theorem sourced_of_truthy {items : List Node} (each : ∀ v ∈ items, v.WellFormed)
    (h : (Sequence.nodes items).truthy) : Sourced (.nodes items) := by
  cases items with
  | nil => cases h
  | cons source rest => exact ⟨source, rest, rfl, each source (.head rest)⟩

/-- The loop that a target is read from has a well-formed source. -/
theorem succeeds_loopBinding {depth : Nat} (h : n ≠ null → n.WellFormed) :
    Succeeds (fun loop => ∀ values ∈ loop, Sourced values) (n.loopBinding depth) := by
  fun_induction loopBinding depth n with
  | case1 depth line name line' targets values cause failed =>
      obtain ⟨names, items, rfl, rfl, -⟩ :=
        ((h identifier_ne_null).declared assignment_ne_null).binding
      cases failed
  | case2 depth line name line' targets values second known held =>
      obtain ⟨names, items, rfl, rfl, each⟩ :=
        ((h identifier_ne_null).declared assignment_ne_null).binding
      refine .ok fun values' same => ?_
      obtain rfl := Option.some.inj same
      exact sourced_of_truthy each (Bool.and_eq_true_iff.mp held).2
  | case3 => exact .ok (by simp)
  | case4 depth line name line' targets values ranged unranged cause failed =>
      obtain ⟨v, found, -⟩ :=
        ((h identifier_ne_null).declared assignment_ne_null).succeeds_bound name
      cases failed.symm.trans found
  | case5 depth line name line' targets values ranged unranged v found ih =>
      obtain ⟨v', found', wellFormed⟩ :=
        ((h identifier_ne_null).declared assignment_ne_null).succeeds_bound name
      obtain rfl := Except.ok.inj (found.symm.trans found')
      exact ih wellFormed
  | case6 => exact .ok (by simp)

end Node

namespace Finding

def Faultless (fs : List Finding) : Prop :=
  ∀ f ∈ fs, f.fault? = none

theorem faultless_nil : Faultless [] := by
  intro f hf
  cases hf

theorem faultless_singleton {f : Finding} (h : f.fault? = none) : Faultless [f] :=
  List.forall_mem_singleton.mpr h

theorem faultless_append {fs gs : List Finding} :
    Faultless (fs ++ gs) ↔ Faultless fs ∧ Faultless gs :=
  List.forall_mem_append

theorem Faultless.withoutNames {fs : List Finding} (h : Faultless fs) :
    Faultless (withoutNames fs) :=
  fun f hf => h f (List.mem_filter.mp hf).1

/-- Strictness makes no difference to findings without faults. -/
theorem Faultless.outcome_eq {α : Type} {fs : List Finding} (h : Faultless fs) (strict : Bool)
    (a : α) : outcome strict fs a = ⟨fs.filterMap record?, .ok a⟩ := by
  have unhindered : obstacle? strict fs = none := by
    cases strict with
    | false => rfl
    | true => exact List.findSome?_eq_none_iff.mpr h
  have complete : log strict fs = fs.filterMap record? := by
    cases strict with
    | false => rfl
    | true =>
        have whole : fs.takeWhile (·.fault?.isNone) = fs :=
          List.takeWhile_eq_self_iff.mpr fun f hf => by rw [h f hf]; rfl
        rw [log, if_pos rfl, whole]
  rw [outcome, unhindered, complete]

/-- Findings without faults give no issue of an unexpected shape. -/
theorem Faultless.issues {fs : List Finding} (h : Faultless fs) :
    ∀ issue ∈ fs.filterMap issue?, issue.isUnexpectedShape = false := by
  intro issue reported
  obtain ⟨f, hf, same⟩ := List.mem_filterMap.mp reported
  cases f with
  | ambiguous why line =>
      obtain rfl := Option.some.inj same
      rfl
  | fault cause line warning => cases h _ hf
  | name | note => cases same

end Finding

namespace Node

variable {cfg : Config} {n : Node}

theorem fault?_searchFinding (element : Node) (line : Int) {search : Except Obstacle String}
    (h : Answers (fun _ => True) search) : (element.searchFinding line search).fault? = none := by
  cases h <;> rfl

def ReadsTables (read : Node → Finding) : Prop :=
  ∀ e : Node, e.isRowElement → e.WellFormed → (read e).fault? = none

theorem readsTables_row (cfg : Config) (field : Datum) : ReadsTables (rowFinding cfg field) := by
  intro e known h
  have row := h.elementValue.behindIndirection
  unfold rowFinding
  split
  · rename_i line elements same
    rw [same] at row
    cases row with
    | compositeValue known each =>
        exact fault?_searchFinding e _
          (answers_rowName cfg field ⟨_, _, rfl, fun e he => ⟨known e he, each e he⟩⟩)
  · rfl

theorem readsTables_key (cfg : Config) : ReadsTables (keyFinding cfg) := by
  intro e known h
  cases h with
  | keyedElement hk hv => exact fault?_searchFinding _ _ (answers_literalValue cfg hk)
  | _ => rfl

theorem readsTables_value (cfg : Config) : ReadsTables (valueFinding cfg) := by
  intro e known h
  have accepted : checkRowElement e = .ok () := if_pos known
  rw [valueFinding, accepted]
  exact fault?_searchFinding e _ (answers_literalValue cfg h.elementValue)

theorem succeeds_collectionFindings {read : Node → Finding} (hr : ReadsTables read)
    (h : n.WellFormed) : Succeeds Faultless (n.collectionFindings cfg read) := by
  have answered := answers_collection cfg h
  rw [collectionFindings]
  generalize n.collection cfg = search at answered ⊢
  cases answered with
  | ok table =>
      obtain ⟨line, elements, rfl, each⟩ := table
      exact .ok (List.forall_mem_map.mpr fun e he => hr e (each e he).1 (each e he).2)
  | ambiguous => exact .ok (faultless_singleton rfl)

theorem succeeds_rangedFindings (cfg : Config) (line : Int) (name : Datum) (names : List Datum)
    {items : List Node} (each : ∀ v ∈ items, v.WellFormed) :
    Succeeds Faultless (rangedFindings cfg line name (.list names) (.nodes items)) := by
  unfold rangedFindings
  split
  · exact .ok (faultless_singleton rfl)
  · rename_i held
    obtain ⟨source, rest, same, wellFormed⟩ := sourced_of_truthy each (by simpa using held)
    rw [same]
    cases among : (names.take 2).any (·.same name) with
    | false =>
        rw [isRanged?, among]
        exact .ok (faultless_singleton rfl)
    | true =>
        cases names with
        | nil => cases among
        | cons first others =>
            have kept : isFirst? (.list (first :: others)) name = .ok (first.same name) := rfl
            rw [isRanged?, among, kept]
            cases first.same name with
            | true => exact succeeds_collectionFindings (readsTables_key cfg) wellFormed
            | false => exact succeeds_collectionFindings (readsTables_value cfg) wellFormed

theorem succeeds_followedFindings (cfg : Config) {line : Int} {name : Datum} {declared : Node}
    (h : (Node.identifier line name declared).WellFormed) :
    Succeeds Faultless (followedFindings cfg line name declared) := by
  have answered := answers_follow cfg h
  rw [followedFindings]
  generalize (Node.identifier line name declared).follow cfg = search at answered ⊢
  cases answered with
  | ok wellFormed =>
      cases wellFormed with
      | literal denotes =>
          exact (succeeds_literalText? denotes).bind fun text _ => .ok (faultless_singleton rfl)
      | _ => exact .ok (faultless_singleton rfl)
  | ambiguous => exact .ok (faultless_singleton rfl)

theorem succeeds_nameFindings (cfg : Config) (h : n.WellFormed) :
    Succeeds Faultless (n.nameFindings cfg) := by
  cases h with
  | literal denotes =>
      exact (succeeds_literalText? denotes).bind fun text _ => .ok (faultless_singleton rfl)
  | memberAccess h =>
      refine (succeeds_loopBinding h).bind fun loop sourced => ?_
      cases loop with
      | none => exact .ok (faultless_singleton rfl)
      | some values =>
          obtain ⟨source, rest, rfl, wellFormed⟩ := sourced values rfl
          exact succeeds_collectionFindings (readsTables_row cfg _) wellFormed
  | @identifier line name declared h =>
      change Succeeds Faultless (identifierFindings cfg line name declared)
      unfold identifierFindings
      split
      · obtain ⟨names, items, rfl, rfl, each⟩ := (h nofun).binding
        exact succeeds_rangedFindings cfg line name names each
      · exact succeeds_followedFindings cfg (.identifier h)
  | _ => exact .ok (faultless_singleton rfl)

theorem faultless_unnamedFindings (cfg : Config) (parent : String) (line : Int) :
    Faultless (unnamedFindings cfg parent line) := by
  refine faultless_append.mpr ⟨?_, faultless_singleton rfl⟩
  split
  · exact faultless_singleton rfl
  · exact faultless_nil

theorem faultless_namedFindings (cfg : Config) (parent : String) (line : Int)
    {inside : String → List Finding} (hi : ∀ name, Faultless (inside name)) {fs : List Finding}
    (hfs : Faultless fs) : Faultless (namedFindings cfg parent line inside fs) := by
  refine faultless_append.mpr ⟨hfs.withoutNames, ?_⟩
  split
  · split
    · exact List.forall_mem_map.mpr fun issue _ => rfl
    · exact faultless_nil
  · intro f hf
    obtain ⟨name, -, hf⟩ := List.mem_flatMap.mp hf
    rcases List.mem_cons.mp hf with rfl | hf
    · rfl
    · exact hi (joinName parent name) f hf

/-- That a node is looked into without a fault, be it a statement or a function that is launched. -/
def FaultlessInside (cfg : Config) (n : Node) : Prop :=
  ∀ parent, Succeeds Faultless (statementFindings cfg parent n) ∧
    ∀ rest, Faultless (functionFindings cfg parent (n :: rest))

theorem faultless_eachFindings {statements : List Node}
    (each : ∀ s ∈ statements, s.FaultlessInside cfg) (parent : String) :
    Faultless (eachFindings cfg parent statements) := by
  induction statements with
  | nil =>
      rw [eachFindings]
      exact faultless_nil
  | cons statement rest ih =>
      obtain ⟨first, later⟩ := List.forall_mem_cons.mp each
      obtain ⟨fs, found, faultless⟩ := (first parent).1
      rw [eachFindings, found]
      exact faultless_append.mpr ⟨faultless, ih later⟩

theorem faultless_functionFindings {rest : List Node}
    (each : ∀ a ∈ rest, a.FaultlessInside cfg) (parent : String) :
    Faultless (functionFindings cfg parent rest) := by
  cases rest with
  | nil => exact faultless_nil
  | cons function rest => exact (each function (.head rest) parent).2 rest

theorem succeeds_launchFindings (parent : String) (line : Int) {arguments : List Node}
    (wellFormed : ∀ a ∈ arguments, a.WellFormed) (each : ∀ a ∈ arguments, a.FaultlessInside cfg) :
    Succeeds Faultless (launchFindings cfg parent line (.nodes arguments)) := by
  cases arguments with
  | nil => exact .ok (faultless_unnamedFindings cfg parent line)
  | cons argument rest =>
      obtain ⟨fs, found, faultless⟩ := succeeds_nameFindings cfg (wellFormed argument (.head rest))
      rw [launchFindings, found]
      exact .ok (faultless_namedFindings cfg parent line
        (faultless_functionFindings (List.forall_mem_cons.mp each).2) faultless)

theorem WellFormed.faultlessInside (h : n.WellFormed) : n.FaultlessInside cfg := by
  -- a function is entered only where it is launched, so both readings are proved at once
  induction h with
  | invocation wellFormed each =>
      refine fun parent => ⟨?_, fun rest => faultless_nil⟩
      rw [statementFindings]
      split
      · exact succeeds_launchFindings parent _ wellFormed each
      · exact .ok faultless_nil
  | iteration wellFormed each =>
      refine fun parent => ⟨?_, fun rest => faultless_nil⟩
      rw [statementFindings, bodyFindings]
      exact .ok (faultless_eachFindings each parent)
  | closure wellFormed each =>
      refine fun parent => ⟨.ok faultless_nil, fun rest => ?_⟩
      rw [functionFindings, bodyFindings]
      exact faultless_eachFindings each parent
  | literal | identifier | memberAccess | indirection | keyedElement | positionalElement
  | compositeValue | assignment | declaration | other =>
      exact fun parent => ⟨.ok faultless_nil, fun rest => faultless_nil⟩

end Node

namespace Entry

theorem faultless_findings (cfg : Config) (mode : Mode) {declaration : Node} {e : Entry}
    (h : declaration.WellFormed) (entry : ofNode? cfg mode declaration = some e) :
    Faultless (e.findings cfg mode) := by
  refine faultless_append.mpr ⟨?_, ?_⟩
  · unfold announcement
    split
    · exact faultless_singleton rfl
    · exact faultless_nil
  · unfold ofNode? at entry
    split at entry
    · split at entry
      · obtain rfl := Option.some.inj entry
        cases h with
        | @declaration _ _ statements _ each =>
            cases mode with
            | benchmarks => exact faultless_nil
            | tests =>
                rw [subtestFindings, Node.bodyFindings]
                exact Node.faultless_eachFindings (fun s hs => (each s hs).faultlessInside) _
      · cases entry
    · cases entry

end Entry

namespace Discovery

theorem ofDeclarations_withStrict (cfg : Config) (strict : Bool) (mode : Mode) (path : String)
    (declarations : List Node) :
    ofDeclarations (cfg.withStrict strict) mode path declarations =
      outcome strict ((Entry.classify cfg mode declarations).flatMap (Entry.findings cfg mode))
        (Entry.contributions cfg mode path (Entry.classify cfg mode declarations)) := by
  rw [ofDeclarations_eq, Entry.findings_withStrict, Entry.contributions_withStrict]
  rfl

/-- Well-formed declarations are discovered without a fault, strictly or not. -/
theorem ofDeclarations_wellFormed (cfg : Config) (mode : Mode) (path : String)
    {declarations : List Node} (h : ∀ d ∈ declarations, d.WellFormed) :
    ∃ found log, (∀ strict, ofDeclarations (cfg.withStrict strict) mode path declarations =
        ⟨log, .ok found⟩) ∧
      ∀ issue ∈ found.issues, issue.isUnexpectedShape = false := by
  let entries := Entry.classify cfg mode declarations
  have faultless : Faultless (entries.flatMap (Entry.findings cfg mode)) := by
    intro f hf
    obtain ⟨e, entry, hf⟩ := List.mem_flatMap.mp hf
    obtain ⟨declaration, declared, same⟩ := List.mem_filterMap.mp entry
    exact Entry.faultless_findings cfg mode (h declaration declared) same f hf
  refine ⟨Entry.contributions cfg mode path entries,
    (entries.flatMap (Entry.findings cfg mode)).filterMap record?, fun strict => ?_, ?_⟩
  · rw [ofDeclarations_withStrict]
    exact faultless.outcome_eq strict _
  · rw [Entry.issues_contributions]
    exact faultless.issues

end Discovery

end TestRoster
