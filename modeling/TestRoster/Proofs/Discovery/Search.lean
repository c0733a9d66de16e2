import TestRoster.Proofs.Discovery.Account

/-!
The search for the names of a launch.

It comes upon names, ambiguities and faults that are contained in an element, and it depends on the
settings by the bound on references alone.
-/
namespace TestRoster

/-- The findings that a search for names can come upon. -/
inductive Finding.Sought : Finding → Prop
  | name (text : String) (line : Int) : Sought (.name text line)
  | ambiguous (why : Ambiguity) (line : Int) : Sought (.ambiguous why line)
  | element (element : Node) (cause : Fault) : Sought (element.elementFault cause)

namespace Node

open Finding

/-- That a search, where it gives a result, comes upon nothing else. -/
def SoughtAccount (r : Except Fault (List Finding)) : Prop :=
  ∀ fs, r = .ok fs → ∀ f ∈ fs, f.Sought

theorem soughtAccount_map {α : Type} {xs : List α} {g : α → Finding} (h : ∀ x, (g x).Sought) :
    SoughtAccount (.ok (xs.map g)) := by
  rintro fs same f hf
  obtain rfl := Except.ok.inj same
  obtain ⟨x, -, rfl⟩ := List.mem_map.mp hf
  exact h x

theorem soughtAccount_one {f : Finding} (h : f.Sought) : SoughtAccount (.ok [f]) := by
  rintro fs same g hg
  obtain rfl := Except.ok.inj same
  obtain rfl := List.mem_singleton.mp hg
  exact h

theorem soughtAccount_error (cause : Fault) : SoughtAccount (.error cause) := by
  intro fs h
  cases h

theorem soughtAccount_bind {α : Type} (r : Except Fault α)
    {next : α → Except Fault (List Finding)} (h : ∀ a, SoughtAccount (next a)) :
    SoughtAccount (r >>= next) := by
  cases r with
  | error cause => exact soughtAccount_error cause
  | ok a => exact h a

theorem sought_searchFinding (element : Node) (line : Int) (search : Except Obstacle String) :
    (element.searchFinding line search).Sought := by
  rcases search with (why | cause) | name
  · exact .ambiguous why line
  · exact .element element cause
  · exact .name name line

theorem sought_rowFinding (cfg : Config) (field : Datum) (element : Node) :
    (rowFinding cfg field element).Sought := by
  unfold rowFinding
  split
  · exact sought_searchFinding _ _ _
  · exact .ambiguous _ _

theorem sought_keyFinding (cfg : Config) (element : Node) : (keyFinding cfg element).Sought := by
  unfold keyFinding
  split
  · exact sought_searchFinding _ _ _
  · exact .ambiguous _ _

theorem sought_valueFinding (cfg : Config) (element : Node) : (valueFinding cfg element).Sought :=
  sought_searchFinding _ _ _

theorem sought_collectionFindings (cfg : Config) (source : Node) {read : Node → Finding}
    (h : ∀ element, (read element).Sought) :
    SoughtAccount (source.collectionFindings cfg read) := by
  unfold collectionFindings
  split
  · exact soughtAccount_bind _ fun items => soughtAccount_map h
  · exact soughtAccount_one (.ambiguous _ _)
  · exact soughtAccount_error _

theorem sought_rangedFindings (cfg : Config) (line : Int) (name : Datum) (targets : Datum)
    (values : Sequence) : SoughtAccount (rangedFindings cfg line name targets values) := by
  unfold rangedFindings
  split
  · exact soughtAccount_one (.ambiguous _ _)
  · refine soughtAccount_bind _ fun among => ?_
    cases among with
    | false => exact soughtAccount_one (.ambiguous _ _)
    | true =>
        refine soughtAccount_bind _ fun source => soughtAccount_bind _ fun first => ?_
        cases first with
        | true => exact sought_collectionFindings cfg source (sought_keyFinding cfg)
        | false => exact sought_collectionFindings cfg source (sought_valueFinding cfg)

theorem sought_followedFindings (cfg : Config) (line : Int) (name : Datum) (declared : Node) :
    SoughtAccount (followedFindings cfg line name declared) := by
  unfold followedFindings
  split
  · exact soughtAccount_bind _ fun text => soughtAccount_one (.name _ _)
  · exact soughtAccount_bind _ fun kind => soughtAccount_one (.ambiguous _ _)
  · exact soughtAccount_one (.ambiguous _ _)
  · exact soughtAccount_error _

theorem sought_identifierFindings (cfg : Config) (line : Int) (name : Datum) (declared : Node) :
    SoughtAccount (identifierFindings cfg line name declared) := by
  unfold identifierFindings
  split
  · exact sought_rangedFindings cfg line name _ _
  · exact sought_followedFindings cfg line name declared

theorem sought_nameFindings (cfg : Config) (argument : Node) :
    SoughtAccount (argument.nameFindings cfg) := by
  cases argument with
  | literal line text => exact soughtAccount_bind _ fun text => soughtAccount_one (.name _ _)
  | memberAccess line target member =>
      refine soughtAccount_bind _ fun loop => ?_
      cases loop with
      | none => exact soughtAccount_one (.ambiguous _ _)
      | some values =>
          exact soughtAccount_bind _ fun source =>
            sought_collectionFindings cfg source (sought_rowFinding cfg member)
  | identifier line name declared => exact sought_identifierFindings cfg line name declared
  | bare value => exact soughtAccount_error _
  | invocation | indirection | keyedElement | positionalElement | compositeValue | assignment
  | closure | iteration | declaration | other => exact soughtAccount_one (.ambiguous _ _)

variable {cfg cfg' : Config}

theorem literalValue_congr (h : cfg.maxReferenceDepth = cfg'.maxReferenceDepth) (n : Node) :
    n.literalValue cfg = n.literalValue cfg' := by
  simp only [literalValue, follow, h]

theorem collection_congr (h : cfg.maxReferenceDepth = cfg'.maxReferenceDepth) (source : Node) :
    source.collection cfg = source.collection cfg' := by
  simp only [collection, follow, h]

theorem positionName_congr (h : cfg.maxReferenceDepth = cfg'.maxReferenceDepth) (n : Node) :
    n.positionName cfg = n.positionName cfg' := by
  cases n <;> first | rfl | exact literalValue_congr h _

theorem nameAmong_congr (h : cfg.maxReferenceDepth = cfg'.maxReferenceDepth) (field : Datum)
    (elements : List Node) : nameAmong cfg field elements = nameAmong cfg' field elements := by
  induction elements with
  | nil => rfl
  | cons element rest ih =>
      cases element with
      | keyedElement line key value => simp only [nameAmong, ih, literalValue_congr h]
      | positionalElement line value => exact positionName_congr h value
      | bare | literal | identifier | memberAccess | invocation | indirection | compositeValue
      | assignment | closure | iteration | declaration | other => exact positionName_congr h _

theorem rowFinding_congr (h : cfg.maxReferenceDepth = cfg'.maxReferenceDepth) (field : Datum) :
    rowFinding cfg field = rowFinding cfg' field := by
  funext element
  simp only [rowFinding, rowName, nameAmong_congr h]

theorem keyFinding_congr (h : cfg.maxReferenceDepth = cfg'.maxReferenceDepth) :
    keyFinding cfg = keyFinding cfg' := by
  funext element
  simp only [keyFinding, literalValue_congr h]

theorem valueFinding_congr (h : cfg.maxReferenceDepth = cfg'.maxReferenceDepth) :
    valueFinding cfg = valueFinding cfg' := by
  funext element
  simp only [valueFinding, literalValue_congr h]

theorem collectionFindings_congr (h : cfg.maxReferenceDepth = cfg'.maxReferenceDepth)
    (source : Node) (read : Node → Finding) :
    source.collectionFindings cfg read = source.collectionFindings cfg' read := by
  simp only [collectionFindings, collection_congr h]

theorem rangedFindings_congr (h : cfg.maxReferenceDepth = cfg'.maxReferenceDepth) (line : Int)
    (name : Datum) (targets : Datum) (values : Sequence) :
    rangedFindings cfg line name targets values = rangedFindings cfg' line name targets values := by
  simp only [rangedFindings, keyFinding_congr h, valueFinding_congr h, collectionFindings_congr h]

theorem followedFindings_congr (h : cfg.maxReferenceDepth = cfg'.maxReferenceDepth) (line : Int)
    (name : Datum) (declared : Node) :
    followedFindings cfg line name declared = followedFindings cfg' line name declared := by
  simp only [followedFindings, follow, h]

theorem identifierFindings_congr (h : cfg.maxReferenceDepth = cfg'.maxReferenceDepth) (line : Int)
    (name : Datum) (declared : Node) :
    identifierFindings cfg line name declared = identifierFindings cfg' line name declared := by
  unfold identifierFindings
  split
  · exact rangedFindings_congr h line name _ _
  · exact followedFindings_congr h line name _

theorem nameFindings_congr (h : cfg.maxReferenceDepth = cfg'.maxReferenceDepth) (argument : Node) :
    argument.nameFindings cfg = argument.nameFindings cfg' := by
  cases argument with
  | memberAccess line target member =>
      simp only [nameFindings, h, rowFinding_congr h, collectionFindings_congr h]
  | identifier line name declared => exact identifierFindings_congr h line name declared
  | bare | literal | invocation | indirection | keyedElement | positionalElement | compositeValue
  | assignment | closure | iteration | declaration | other => rfl

end Node

end TestRoster
