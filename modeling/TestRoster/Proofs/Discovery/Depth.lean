import TestRoster.Proofs.Discovery.Containment
import TestRoster.Proofs.Discovery.Origin

/-!
The bound on references hides names and changes none.

The chain of identifiers behind an expression depends on the tree alone. It is followed to its end
where the bound admits every identifier on it, and given up at the first identifier beyond the
bound otherwise. With a larger bound a search ends as before, unless it gave a reference up; so the
names of a body are among those that a larger bound gives, in the same order.
-/
namespace TestRoster

/-- The same settings with another bound on references. -/
def Config.withDepth (cfg : Config) (depth : Nat) : Config :=
  { cfg with maxReferenceDepth := depth }

namespace Node

/-- The chain of identifiers that starts with a node: the names visited, and what stands at its
end. No bound has a part in it. -/
inductive Chain : Node → List Datum → Except Obstacle Node → Prop where
  | value {n} (unnamed : ∀ line name declared, n ≠ .identifier line name declared)
      (given : n ≠ null) : Chain n [] (.ok n)
  | empty : Chain null [] (.error (.ambiguous .emptyExpression))
  | undeclared {line name} :
      Chain (.identifier line name null) [name] (.error (.ambiguous (.undeclared name)))
  | declaredBy {line name declared kind}
      (unbound : ∀ line targets values ranged, declared ≠ .assignment line targets values ranged)
      (known : declared.kind? = .ok kind) :
      Chain (.identifier line name declared) [name] (.error (.ambiguous (.declaredBy name kind)))
  | unknown {line name declared cause} (given : declared ≠ null)
      (unknown : declared.kind? = .error cause) :
      Chain (.identifier line name declared) [name] (.error (.fault cause))
  | loopVariable {line name line' targets values} :
      Chain (.identifier line name (.assignment line' targets values true)) [name]
        (.error (.ambiguous (.loopVariable name)))
  | unreadable {line name line' targets values cause}
      (failed : valueFor? targets values false name = .error cause) :
      Chain (.identifier line name (.assignment line' targets values false)) [name]
        (.error (.fault cause))
  | noSingleValue {line name line' targets values}
      (found : valueFor? targets values false name = .ok null) :
      Chain (.identifier line name (.assignment line' targets values false)) [name]
        (.error (.ambiguous (.noSingleValue name)))
  | bound {line name line' targets values v names ending}
      (found : valueFor? targets values false name = .ok v) (given : v ≠ null)
      (later : Chain v.behindIndirection names ending) :
      Chain (.identifier line name (.assignment line' targets values false)) (name :: names) ending

theorem sizeOf_behindIndirection (n : Node) : sizeOf n.behindIndirection ≤ sizeOf n := by
  cases n with
  | indirection line target =>
      simp only [behindIndirection, indirection.sizeOf_spec]
      omega
  | bare | literal | identifier | memberAccess | invocation | keyedElement | positionalElement
  | compositeValue | assignment | closure | iteration | declaration | other => exact Nat.le_refl _

/-- What a binding gives is a bare value, or smaller than the binding. -/
theorem bare_or_smaller {targets : Datum} {values : Sequence} {name : Datum} {v : Node}
    (found : valueFor? targets values false name = .ok v) :
    (∃ d, v = .bare d) ∨ sizeOf v.behindIndirection < sizeOf values := by
  rcases mem_of_valueFor? found with rfl | member
  · exact .inl ⟨_, rfl⟩
  · cases values with
    | nodes items =>
        have smaller : sizeOf v < sizeOf items := List.sizeOf_lt_of_mem member
        have behind := sizeOf_behindIndirection v
        refine .inr ?_
        simp only [Sequence.nodes.sizeOf_spec]
        omega
    | lone n =>
        -- only a bare value has parts, and these are bare again
        cases n with
        | bare d =>
            cases parts : d.parts? with
            | none => simp [Sequence.members, parts?, parts] at member
            | some ds =>
                simp only [Sequence.members, parts?, parts, Option.map_some, Option.getD_some,
                  List.mem_map] at member
                obtain ⟨part, -, rfl⟩ := member
                exact .inl ⟨part, rfl⟩
        | literal | identifier | memberAccess | invocation | indirection | keyedElement
        | positionalElement | compositeValue | assignment | closure | iteration | declaration
        | other => cases member

theorem exists_chain_of_unnamed {n : Node}
    (unnamed : ∀ line name declared, n ≠ .identifier line name declared) :
    ∃ names ending, n.Chain names ending := by
  by_cases given : n = null
  · subst given
    exact ⟨_, _, .empty⟩
  · exact ⟨_, _, .value unnamed given⟩

/-- Every chain comes to an end. -/
theorem exists_chain (n : Node) : ∃ names ending, n.Chain names ending := by
  induction size : sizeOf n using Nat.strongRecOn generalizing n with
  | ind k ih =>
      cases n with
      | identifier line name declared =>
          cases declared with
          | bare d =>
              by_cases given : Node.bare d = null
              · rw [given]
                exact ⟨_, _, .undeclared⟩
              · exact ⟨_, _, .unknown given rfl⟩
          | assignment line' targets values ranged =>
              cases ranged with
              | true => exact ⟨_, _, .loopVariable⟩
              | false =>
                  cases found : valueFor? targets values false name with
                  | error cause => exact ⟨_, _, .unreadable found⟩
                  | ok v =>
                      by_cases given : v = null
                      · rw [given] at found
                        exact ⟨_, _, .noSingleValue found⟩
                      · obtain ⟨names, ending, later⟩ :
                            ∃ names ending, v.behindIndirection.Chain names ending := by
                          rcases bare_or_smaller found with ⟨d, rfl⟩ | smaller
                          · exact exists_chain_of_unnamed (by simp [behindIndirection])
                          · simp only [identifier.sizeOf_spec, assignment.sizeOf_spec] at size
                            exact ih _ (by omega) _ rfl
                        exact ⟨_, _, .bound found given later⟩
          | literal | identifier | memberAccess | invocation | indirection | keyedElement
          | positionalElement | compositeValue | closure | iteration | declaration | other =>
              exact ⟨_, _, .declaredBy (by simp) rfl⟩
      | bare | literal | memberAccess | invocation | indirection | keyedElement
      | positionalElement | compositeValue | assignment | closure | iteration | declaration
      | other => exact exists_chain_of_unnamed (by simp)

/-- No chain ends with a bound. -/
theorem Chain.ending_ne_tooDeep {n : Node} {names : List Datum} {ending : Except Obstacle Node}
    (h : n.Chain names ending) (name : Datum) : ending ≠ .error (.ambiguous (.tooDeep name)) := by
  induction h with
  | bound found given later ih => exact ih
  | value | empty | undeclared | declaredBy | unknown | loopVariable | unreadable
  | noSingleValue => simp

/-- A chain is followed to its end if it visits no more identifiers than the bound admits, and is
given up at the first one beyond. -/
theorem Chain.followFrom_eq {n : Node} {names : List Datum} {ending : Except Obstacle Node}
    (h : n.Chain names ending) (depth : Nat) :
    n.followFrom depth =
      match names[depth]? with
      | none => ending
      | some name => .error (.ambiguous (.tooDeep name)) := by
  induction h generalizing depth with
  | @value n unnamed given =>
      cases n with
      | bare d =>
          cases d with
          | null => exact absurd rfl given
          | bool | int | float | str | list | dict => cases depth <;> rfl
      | identifier line name declared => exact absurd rfl (unnamed line name declared)
      | literal | memberAccess | invocation | indirection | keyedElement
      | positionalElement | compositeValue | assignment | closure | iteration | declaration
      | other => cases depth <;> rfl
  | empty | undeclared | loopVariable => cases depth <;> rfl
  | @declaredBy line name declared kind unbound known =>
      cases depth with
      | zero => rfl
      | succ depth =>
          cases declared with
          | bare d => cases known
          | assignment line' targets values ranged =>
              exact absurd rfl (unbound line' targets values ranged)
          | literal | identifier | memberAccess | invocation | indirection | keyedElement
          | positionalElement | compositeValue | closure | iteration | declaration | other =>
              cases known
              rfl
  | @unknown line name declared cause given unknown =>
      cases depth with
      | zero => rfl
      | succ depth =>
          cases declared with
          | bare d =>
              cases unknown
              cases d with
              | null => exact absurd rfl given
              | bool | int | float | str | list | dict => rfl
          | literal | identifier | memberAccess | invocation | indirection | keyedElement
          | positionalElement | compositeValue | assignment | closure | iteration | declaration
          | other => cases unknown
  | unreadable failed =>
      cases depth with
      | zero => rfl
      | succ depth => simp [followFrom, failed]
  | noSingleValue found =>
      cases depth with
      | zero => rfl
      | succ depth => simp [followFrom, found, null]
  | @bound line name line' targets values v names ending found given later ih =>
      cases depth with
      | zero => rfl
      | succ depth =>
          rw [List.getElem?_cons_succ, ← ih depth]
          simp only [followFrom, found, Bool.false_eq_true, if_false]
          split
          · rename_i failed
            cases failed
          · rename_i absent
            exact absurd (Except.ok.inj absent) given
          · rename_i same
            rw [Except.ok.inj same]

/-- What a larger bound makes of a search: it ends as before, unless it gave a reference up. -/
def Deepens {α : Type} (r r' : Except Obstacle α) : Prop :=
  r' = r ∨ ∃ name, r = .error (.ambiguous (.tooDeep name))

theorem Deepens.bind {α β : Type} {r r' : Except Obstacle α} {next next' : α → Except Obstacle β}
    (h : Deepens r r') (each : ∀ a, Deepens (next a) (next' a)) :
    Deepens (r >>= next) (r' >>= next') := by
  rcases h with rfl | ⟨name, rfl⟩
  · cases r' with
    | error obstacle => exact .inl rfl
    | ok a => exact each a
  · exact .inr ⟨name, rfl⟩

section

variable (cfg : Config) {d d' : Nat} (deeper : d ≤ d')

include deeper

theorem deepens_follow (n : Node) :
    Deepens (n.follow (cfg.withDepth d)) (n.follow (cfg.withDepth d')) := by
  obtain ⟨names, ending, chain⟩ := exists_chain n.behindIndirection
  have shallow := chain.followFrom_eq d
  have deep := chain.followFrom_eq d'
  cases visited : names[d]? with
  | some name =>
      rw [visited] at shallow
      exact .inr ⟨name, shallow⟩
  | none =>
      have count : names.length ≤ d := List.getElem?_eq_none_iff.mp visited
      have beyond : names[d']? = none := List.getElem?_eq_none_iff.mpr (Nat.le_trans count deeper)
      rw [visited] at shallow
      rw [beyond] at deep
      exact .inl (deep.trans shallow.symm)

theorem deepens_collection (source : Node) :
    Deepens (source.collection (cfg.withDepth d)) (source.collection (cfg.withDepth d')) :=
  (deepens_follow cfg deeper source).bind fun _ => .inl rfl

theorem deepens_literalValue (n : Node) :
    Deepens (n.literalValue (cfg.withDepth d)) (n.literalValue (cfg.withDepth d')) :=
  (deepens_follow cfg deeper n).bind fun _ => .inl rfl

theorem deepens_positionName (n : Node) :
    Deepens (n.positionName (cfg.withDepth d)) (n.positionName (cfg.withDepth d')) := by
  cases n with
  | closure | compositeValue => exact .inl rfl
  | bare | literal | identifier | memberAccess | invocation | indirection | keyedElement
  | positionalElement | assignment | iteration | declaration | other =>
      exact deepens_literalValue cfg deeper _

theorem deepens_nameAmong (field : Datum) (elements : List Node) :
    Deepens (nameAmong (cfg.withDepth d) field elements)
      (nameAmong (cfg.withDepth d') field elements) := by
  induction elements with
  | nil => exact .inl rfl
  | cons element rest ih =>
      cases element with
      | keyedElement line key value =>
          simp only [nameAmong]
          cases key.keyName? with
          | error cause => exact .inl rfl
          | ok name =>
              by_cases same : name.same field
              · simp only [same, if_true]
                exact deepens_literalValue cfg deeper value
              · simp only [same]
                exact ih
      | positionalElement line value => exact deepens_positionName cfg deeper value
      | bare | literal | identifier | memberAccess | invocation | indirection | compositeValue
      | assignment | closure | iteration | declaration | other =>
          exact deepens_positionName cfg deeper _

theorem deepens_rowName (field : Datum) (row : Node) :
    Deepens (row.rowName (cfg.withDepth d) field) (row.rowName (cfg.withDepth d') field) := by
  have listed : Deepens (Obstacle.orFault row.elementList?) (Obstacle.orFault row.elementList?) :=
    .inl rfl
  refine listed.bind fun elements => ?_
  have checked : Deepens (Obstacle.orFault (elements.forM checkRowElement))
      (Obstacle.orFault (elements.forM checkRowElement)) := .inl rfl
  exact checked.bind fun _ => deepens_nameAmong cfg deeper field elements

end

/-- A larger bound finds the range clause that was found before. -/
theorem loopBinding_of_le {d d' : Nat} (deeper : d ≤ d') (n : Node) :
    n.loopBinding d = .ok none ∨ n.loopBinding d' = n.loopBinding d := by
  induction d generalizing d' n with
  | zero => exact .inl (by cases n <;> rfl)
  | succ d ih =>
      obtain ⟨e, rfl⟩ : ∃ e, d' = e + 1 := ⟨d' - 1, by omega⟩
      cases n with
      | identifier line name declared =>
          cases declared with
          | assignment line' targets values ranged =>
              cases ranged with
              | true => exact .inr rfl
              | false =>
                  simp only [loopBinding, Bool.false_eq_true, if_false]
                  cases valueFor? targets values false name with
                  | error cause => exact .inr rfl
                  | ok v => exact ih (by omega) v
          | bare | literal | identifier | memberAccess | invocation | indirection | keyedElement
          | positionalElement | compositeValue | closure | iteration | declaration | other =>
              exact .inl rfl
      | bare | literal | memberAccess | invocation | indirection | keyedElement
      | positionalElement | compositeValue | assignment | closure | iteration | declaration
      | other => exact .inl rfl

end Node

def Resolution.pairs (r : Resolution) : List (String × Int) :=
  r.names.zip r.lines

namespace Finding

def named (fs : List Finding) : List (String × Int) :=
  fs.filterMap name?

theorem named_append (fs gs : List Finding) : named (fs ++ gs) = named fs ++ named gs :=
  List.filterMap_append

theorem pairs_ofFindings (fs : List Finding) : (Resolution.ofFindings fs).pairs = named fs := by
  simp [Resolution.pairs, Resolution.ofFindings, named, List.zip_map']

theorem names_ofFindings (fs : List Finding) :
    (Resolution.ofFindings fs).names = (named fs).map Prod.fst := rfl

end Finding

namespace Node

open Finding

/-- What an account names. A search that ends with a fault names nothing. -/
def accountNames : Except Fault (List Finding) → List (String × Int)
  | .ok fs => named fs
  | .error _ => []

/-- That the names of one account are among those of another, in the same order. -/
def Reveals (r r' : Except Fault (List Finding)) : Prop :=
  (accountNames r).Sublist (accountNames r')

theorem Reveals.of_nameless {r r' : Except Fault (List Finding)} (h : accountNames r = []) :
    Reveals r r' := by
  rw [Reveals, h]
  exact List.nil_sublist _

theorem reveals_refl (r : Except Fault (List Finding)) : Reveals r r :=
  List.Sublist.refl _

theorem reveals_bind {α : Type} (reading : Except Fault α)
    {next next' : α → Except Fault (List Finding)} (h : ∀ a, Reveals (next a) (next' a)) :
    Reveals (reading >>= next) (reading >>= next') := by
  cases reading with
  | error cause => exact reveals_refl _
  | ok a => exact h a

/-- That a reading of elements names at least what another one names. -/
def ReadsMore (read read' : Node → Finding) : Prop :=
  ∀ element, (read element).name? = none ∨ (read' element).name? = (read element).name?

theorem readsMore_search {element : Node} {line : Int} {r r' : Except Obstacle String}
    (h : Deepens r r') : (element.searchFinding line r).name? = none ∨
      (element.searchFinding line r').name? = (element.searchFinding line r).name? := by
  rcases h with rfl | ⟨name, rfl⟩
  · exact .inr rfl
  · exact .inl rfl

theorem ReadsMore.map {read read' : Node → Finding} (h : ReadsMore read read')
    (items : List Node) : (named (items.map read)).Sublist (named (items.map read')) := by
  induction items with
  | nil => exact List.Sublist.refl _
  | cons item rest ih =>
      simp only [named, List.map_cons, List.filterMap_cons] at ih ⊢
      rcases h item with none | same
      · rw [none]
        cases (read' item).name? with
        | none => exact ih
        | some pair => exact ih.cons pair
      · rw [same]
        cases (read item).name? with
        | none => exact ih
        | some pair => exact ih.cons_cons pair

section

variable (cfg : Config) {d d' : Nat} (deeper : d ≤ d')

include deeper

theorem readsMore_row (field : Datum) :
    ReadsMore (rowFinding (cfg.withDepth d) field) (rowFinding (cfg.withDepth d') field) := by
  intro element
  unfold rowFinding
  split
  · exact readsMore_search (deepens_rowName cfg deeper field _)
  · exact .inl rfl

theorem readsMore_key :
    ReadsMore (keyFinding (cfg.withDepth d)) (keyFinding (cfg.withDepth d')) := by
  intro element
  unfold keyFinding
  split
  · exact readsMore_search (deepens_literalValue cfg deeper _)
  · exact .inl rfl

theorem readsMore_value :
    ReadsMore (valueFinding (cfg.withDepth d)) (valueFinding (cfg.withDepth d')) := by
  intro element
  have checked : Deepens (Obstacle.orFault element.checkRowElement)
      (Obstacle.orFault element.checkRowElement) := .inl rfl
  exact readsMore_search (checked.bind fun _ => deepens_literalValue cfg deeper _)

theorem reveals_collectionFindings (source : Node) {read read' : Node → Finding}
    (h : ReadsMore read read') :
    Reveals (source.collectionFindings (cfg.withDepth d) read)
      (source.collectionFindings (cfg.withDepth d') read') := by
  unfold collectionFindings
  rcases deepens_collection cfg deeper source with same | ⟨name, hidden⟩
  · rw [same]
    split
    · exact reveals_bind _ fun items => h.map items
    · exact reveals_refl _
    · exact reveals_refl _
  · rw [hidden]
    exact .of_nameless rfl

theorem reveals_rangedFindings (line : Int) (name targets : Datum) (values : Sequence) :
    Reveals (rangedFindings (cfg.withDepth d) line name targets values)
      (rangedFindings (cfg.withDepth d') line name targets values) := by
  unfold rangedFindings
  split
  · exact reveals_refl _
  · refine reveals_bind _ fun among => ?_
    cases among with
    | false => exact reveals_refl _
    | true =>
        refine reveals_bind _ fun source => reveals_bind _ fun first => ?_
        cases first with
        | true => exact reveals_collectionFindings cfg deeper source (readsMore_key cfg deeper)
        | false => exact reveals_collectionFindings cfg deeper source (readsMore_value cfg deeper)

theorem reveals_followedFindings (line : Int) (name : Datum) (declared : Node) :
    Reveals (followedFindings (cfg.withDepth d) line name declared)
      (followedFindings (cfg.withDepth d') line name declared) := by
  unfold followedFindings
  rcases deepens_follow cfg deeper (.identifier line name declared) with same | ⟨given, hidden⟩
  · rw [same]
    exact reveals_refl _
  · rw [hidden]
    exact .of_nameless rfl

theorem reveals_identifierFindings (line : Int) (name : Datum) (declared : Node) :
    Reveals (identifierFindings (cfg.withDepth d) line name declared)
      (identifierFindings (cfg.withDepth d') line name declared) := by
  unfold identifierFindings
  split
  · exact reveals_rangedFindings cfg deeper line name _ _
  · exact reveals_followedFindings cfg deeper line name declared

theorem reveals_nameFindings (argument : Node) :
    Reveals (argument.nameFindings (cfg.withDepth d))
      (argument.nameFindings (cfg.withDepth d')) := by
  cases argument with
  | memberAccess line target member =>
      simp only [nameFindings, Config.withDepth]
      rcases loopBinding_of_le deeper target with unbound | same
      · rw [unbound]
        exact .of_nameless rfl
      · rw [same]
        refine reveals_bind _ fun loop => ?_
        cases loop with
        | none => exact reveals_refl _
        | some values =>
            exact reveals_bind _ fun source =>
              reveals_collectionFindings cfg deeper source (readsMore_row cfg deeper member)
  | identifier line name declared => exact reveals_identifierFindings cfg deeper line name declared
  | bare | literal | invocation | indirection | keyedElement | positionalElement | compositeValue
  | assignment | closure | iteration | declaration | other => exact reveals_refl _

end

theorem named_launchedFindings_sublist (parent : String) (line : Int)
    {inside inside' : String → List Finding}
    (h : ∀ name, (named (inside name)).Sublist (named (inside' name))) {names names' : List String}
    (more : names.Sublist names') :
    (named (launchedFindings parent line inside names)).Sublist
      (named (launchedFindings parent line inside' names')) := by
  induction more with
  | slnil => exact List.Sublist.refl _
  | cons name more ih =>
      rw [launchedFindings, launchedFindings, List.flatMap_cons, named_append]
      exact ih.trans (List.sublist_append_right _ _)
  | cons_cons name more ih =>
      simp only [launchedFindings, List.flatMap_cons, named_append] at ih ⊢
      exact ((h (joinName parent name)).cons_cons _).append ih

/-- A launch names what it is launched under and what is inside; nothing else of it is a name. -/
theorem named_namedFindings (cfg : Config) (parent : String) (line : Int)
    (inside : String → List Finding) (fs : List Finding) :
    named (namedFindings cfg parent line inside fs) =
      named (launchedFindings parent line inside ((named fs).map Prod.fst)) := by
  rw [← pairs_ofFindings, ofFindings_namedFindings, names_ofFindings]
  simp only [Resolution.extend, List.nil_append]
  exact pairs_ofFindings _

theorem reveals_launch (cfg : Config) {d d' : Nat} (parent : String) (line : Int)
    {inside inside' : String → List Finding}
    (h : ∀ name, (named (inside name)).Sublist (named (inside' name)))
    {r r' : Except Fault (List Finding)} (more : Reveals r r') :
    Reveals (r.map (namedFindings (cfg.withDepth d) parent line inside))
      (r'.map (namedFindings (cfg.withDepth d') parent line inside')) := by
  cases r with
  | error cause => exact .of_nameless rfl
  | ok fs =>
      cases r' with
      | error cause =>
          have nameless : named fs = [] := List.sublist_nil.mp more
          refine .of_nameless ?_
          simp only [Except.map, accountNames, named_namedFindings, nameless]
          rfl
      | ok fs' =>
          simp only [Reveals, Except.map, accountNames, named_namedFindings]
          exact named_launchedFindings_sublist parent line h (more.map Prod.fst)

theorem named_containedFindings (parent : String) (statement : Node)
    (r : Except Fault (List Finding)) :
    named (containedFindings parent statement r) = accountNames r := by
  cases r <;> rfl

mutual

theorem named_bodyFindings_sublist (cfg : Config) {d d' : Nat} (deeper : d ≤ d')
    (parent : String) (body : Sequence) :
    (named (bodyFindings (cfg.withDepth d) parent body)).Sublist
      (named (bodyFindings (cfg.withDepth d') parent body)) := by
  cases body with
  | nodes statements =>
      rw [bodyFindings, bodyFindings]
      exact named_eachFindings_sublist cfg deeper parent statements
  | lone n => simp only [bodyFindings, List.Sublist.refl]

theorem named_eachFindings_sublist (cfg : Config) {d d' : Nat} (deeper : d ≤ d')
    (parent : String) (statements : List Node) :
    (named (eachFindings (cfg.withDepth d) parent statements)).Sublist
      (named (eachFindings (cfg.withDepth d') parent statements)) := by
  cases statements with
  | nil => simp only [eachFindings, List.Sublist.refl]
  | cons statement rest =>
      rw [eachFindings, eachFindings, named_append, named_append, named_containedFindings,
        named_containedFindings]
      exact (reveals_statementFindings cfg deeper parent statement).append
        (named_eachFindings_sublist cfg deeper parent rest)

theorem reveals_statementFindings (cfg : Config) {d d' : Nat} (deeper : d ≤ d')
    (parent : String) (statement : Node) :
    Reveals (statementFindings (cfg.withDepth d) parent statement)
      (statementFindings (cfg.withDepth d') parent statement) := by
  cases statement with
  | iteration line source body =>
      rw [statementFindings, statementFindings]
      exact named_bodyFindings_sublist cfg deeper parent body
  | invocation line callee arguments =>
      have same : callee.isLaunch (cfg.withDepth d') = callee.isLaunch (cfg.withDepth d) := rfl
      rw [statementFindings, statementFindings, same]
      split
      · exact reveals_launchFindings cfg deeper parent line arguments
      · exact reveals_refl _
  | bare | literal | identifier | memberAccess | indirection | keyedElement | positionalElement
  | compositeValue | assignment | closure | declaration | other => exact reveals_refl _

theorem reveals_launchFindings (cfg : Config) {d d' : Nat} (deeper : d ≤ d')
    (parent : String) (line : Int) (arguments : Sequence) :
    Reveals (launchFindings (cfg.withDepth d) parent line arguments)
      (launchFindings (cfg.withDepth d') parent line arguments) := by
  match arguments with
  | .nodes [] => exact reveals_refl _
  | .nodes (argument :: rest) =>
      rw [launchFindings, launchFindings]
      exact reveals_launch cfg parent line
        (fun name => named_functionFindings_sublist cfg deeper name rest)
        (reveals_nameFindings cfg deeper argument)
  | .lone n =>
      rw [launchFindings, launchFindings]
      split
      · exact reveals_refl _
      · refine reveals_bind _ fun argument => ?_
        exact reveals_launch cfg parent line (fun _ => List.Sublist.refl _)
          (reveals_nameFindings cfg deeper argument)

theorem named_functionFindings_sublist (cfg : Config) {d d' : Nat} (deeper : d ≤ d')
    (parent : String) (rest : List Node) :
    (named (functionFindings (cfg.withDepth d) parent rest)).Sublist
      (named (functionFindings (cfg.withDepth d') parent rest)) := by
  match rest with
  | .closure line body :: _ =>
      rw [functionFindings, functionFindings]
      exact named_bodyFindings_sublist cfg deeper parent body
  | [] => exact List.Sublist.refl _
  | .bare _ :: _ | .literal .. :: _ | .identifier .. :: _ | .memberAccess .. :: _
  | .invocation .. :: _ | .indirection .. :: _ | .keyedElement .. :: _
  | .positionalElement .. :: _ | .compositeValue .. :: _ | .assignment .. :: _
  | .iteration .. :: _ | .declaration .. :: _ | .other .. :: _ => exact List.Sublist.refl _

end

end Node

/-- The bound on references only hides. With a larger one a body keeps all of its names, with their
lines and in their order. An expression keeps the value that it leads to, and the reason why there
is none unless the reason was the bound; and its chain of identifiers is followed to the end exactly
if it visits no more of them than the bound admits. -/
theorem reference_bound_only_hides (cfg : Config) :
    (∀ (parent : String) (body : Sequence) (d d' : Nat), d ≤ d' → ∃ r r',
      (Node.resolve ((cfg.withDepth d).withStrict false) parent body).result = .ok r ∧
      (Node.resolve ((cfg.withDepth d').withStrict false) parent body).result = .ok r' ∧
      r.names.length = r.lines.length ∧ r'.names.length = r'.lines.length ∧
      (r.names.zip r.lines).Sublist (r'.names.zip r'.lines)) ∧
    ∀ n : Node,
      (∀ d d', d ≤ d' → ∀ m, n.follow (cfg.withDepth d) = .ok m →
        n.follow (cfg.withDepth d') = .ok m) ∧
      (∀ d d', d ≤ d' → ∀ why, (∀ name, why ≠ .tooDeep name) →
        n.follow (cfg.withDepth d) = .error (.ambiguous why) →
          n.follow (cfg.withDepth d') = .error (.ambiguous why)) ∧
      ∃ visited ending, n.behindIndirection.Chain visited ending ∧
        (∀ name, ending ≠ .error (.ambiguous (.tooDeep name))) ∧
        ∀ d, n.follow (cfg.withDepth d) = ending ↔ visited.length ≤ d := by
  refine ⟨fun parent body d d' deeper => ?_, fun n => ⟨?value, ?reason, ?chain⟩⟩
  · refine ⟨_, _, Node.resolve_tolerant _ parent body, Node.resolve_tolerant _ parent body,
      by simp [Resolution.ofFindings], by simp [Resolution.ofFindings], ?_⟩
    have shallow := Finding.pairs_ofFindings (Node.bodyFindings (cfg.withDepth d) parent body)
    have deep := Finding.pairs_ofFindings (Node.bodyFindings (cfg.withDepth d') parent body)
    rw [Resolution.pairs] at shallow deep
    rw [shallow, deep]
    exact Node.named_bodyFindings_sublist cfg deeper parent body
  case value =>
    intro d d' deeper m found
    rcases Node.deepens_follow cfg deeper n with same | ⟨name, hidden⟩
    · rw [same, found]
    · rw [hidden] at found
      cases found
  case reason =>
    intro d d' deeper why other found
    rcases Node.deepens_follow cfg deeper n with same | ⟨name, hidden⟩
    · rw [same, found]
    · rw [hidden] at found
      obtain rfl := Obstacle.ambiguous.inj (Except.error.inj found)
      exact absurd rfl (other name)
  case chain =>
    obtain ⟨visited, ending, chain⟩ := n.behindIndirection.exists_chain
    refine ⟨visited, ending, chain, chain.ending_ne_tooDeep, fun d => ?_⟩
    have followed : n.follow (cfg.withDepth d) = _ := chain.followFrom_eq d
    rw [followed, ← List.getElem?_eq_none_iff]
    cases visited[d]? with
    | none => simp
    | some name => simpa using (chain.ending_ne_tooDeep name).symm

/-- A launch under a name that is bound to another name. A bound of one hides it, a bound of two
does not, and a larger bound leads to the same literal; a name without declaration stays without. -/
theorem bound_of_one_hides_alias :
    let cfg : Config := {}
    let text := Node.literal 1 (.str "\x60a\x60")
    let first := Node.identifier 2 (.str "x")
      (.assignment 1 (.list [.str "x"]) (.nodes [text]) false)
    let second := Node.identifier 3 (.str "y")
      (.assignment 2 (.list [.str "y"]) (.nodes [first]) false)
    let body : Sequence :=
      .nodes [.invocation 3 (.memberAccess 3 .null (.str "Run")) (.nodes [second])]
    ((Node.resolve ((cfg.withDepth 1).withStrict false) "TestA" body).result.toOption.map
        Resolution.names = some [] ∧
      (Node.resolve ((cfg.withDepth 2).withStrict false) "TestA" body).result.toOption.map
        Resolution.names = some ["TestA/a"]) ∧
    (∃ r r',
      (Node.resolve ((cfg.withDepth 1).withStrict false) "TestA" body).result = .ok r ∧
      (Node.resolve ((cfg.withDepth 2).withStrict false) "TestA" body).result = .ok r' ∧
      (r.names.zip r.lines).Sublist (r'.names.zip r'.lines)) ∧
    (second.follow (cfg.withDepth 2) = .ok text ∧ second.follow (cfg.withDepth 9) = .ok text) ∧
    (∀ name, Ambiguity.undeclared (.str "z") ≠ .tooDeep name) ∧
    (Node.identifier 4 (.str "z") .null).follow (cfg.withDepth 9) =
      .error (.ambiguous (.undeclared (.str "z"))) := by
  intro cfg text first second body
  obtain ⟨bodies, expressions⟩ := reference_bound_only_hides cfg
  obtain ⟨r, r', shallow, deep, -, -, among⟩ := bodies "TestA" body 1 2 (by decide)
  obtain ⟨values, -, -⟩ := expressions second
  obtain ⟨-, reasons, -⟩ := expressions (.identifier 4 (.str "z") .null)
  exact ⟨⟨by decide +kernel, by decide +kernel⟩, ⟨r, r', shallow, deep, among⟩,
    ⟨rfl, values 2 9 (by decide) text rfl⟩, by simp, reasons 1 9 (by decide) _ (by simp) rfl⟩

end TestRoster
