import Mathlib.Logic.Relation
import TestRoster.Proofs.Discovery.Account

/-!
Where names come from.

An expression leads to the nodes behind its declaration links, the values of bindings and the
elements of composite values. Every name that is read off an argument is the text of a literal that
the argument leads to, so nothing is made up on the way.
-/
namespace TestRoster

open Relation

theorem exists_of_bind_ok {ε α β : Type} {r : Except ε α} {next : α → Except ε β} {b : β}
    (h : (r >>= next) = .ok b) : ∃ a, r = .ok a ∧ next a = .ok b := by
  cases r with
  | error cause => cases h
  | ok a => exact ⟨a, rfl, h⟩

theorem Obstacle.ok_of_orFault {α : Type} {r : Except Fault α} {a : α}
    (h : Obstacle.orFault r = .ok a) : r = .ok a := by
  cases r with
  | error cause => cases h
  | ok b => exact congrArg Except.ok (Except.ok.inj h)

/-- The nodes that a field holds. A bare value holds its parts. -/
def Sequence.members : Sequence → List Node
  | .nodes items => items
  | .lone n => n.parts?.getD []

namespace Node

/-- One step from an expression towards what it stands for. -/
inductive Leads : Node → Node → Prop where
  | declared {line name declaration} : Leads (.identifier line name declaration) declaration
  | value {line targets values ranged v} (h : v ∈ values.members) :
      Leads (.assignment line targets values ranged) v
  | element {line elements e} (h : e ∈ elements.members) : Leads (.compositeValue line elements) e
  | key {line k v} : Leads (.keyedElement line k v) k
  | keyedValue {line k v} : Leads (.keyedElement line k v) v
  | positionalValue {line v} : Leads (.positionalElement line v) v
  | operand {line n} : Leads (.indirection line n) n

/-- The nodes that a node is written with. Declaration links are no part of it. -/
inductive Holds : Node → Node → Prop where
  | target {line n member} : Holds (.memberAccess line n member) n
  | callee {line n arguments} : Holds (.invocation line n arguments) n
  | argument {line callee arguments n} (h : n ∈ arguments.members) :
      Holds (.invocation line callee arguments) n
  | operand {line n} : Holds (.indirection line n) n
  | key {line k v} : Holds (.keyedElement line k v) k
  | keyedValue {line k v} : Holds (.keyedElement line k v) v
  | positionalValue {line v} : Holds (.positionalElement line v) v
  | element {line elements e} (h : e ∈ elements.members) : Holds (.compositeValue line elements) e
  | value {line targets values ranged v} (h : v ∈ values.members) :
      Holds (.assignment line targets values ranged) v
  | closureBody {line body n} (h : n ∈ body.members) : Holds (.closure line body) n
  | source {line n body} : Holds (.iteration line n body) n
  | loopBody {line source body n} (h : n ∈ body.members) : Holds (.iteration line source body) n
  | functionBody {line name body receiver n} (h : n ∈ body.members) :
      Holds (.declaration line name body receiver) n

def LeadsToText (n : Node) (s : String) : Prop :=
  ∃ line t, ReflTransGen Leads n (.literal line (.str t)) ∧ Quoted.stripQuotes t = .ok s

/-- The text of a literal that an argument, or the target of a selector in its place, leads to. -/
def Tells (n : Node) (s : String) : Prop :=
  n.LeadsToText s ∨ ∃ line target member, n = .memberAccess line target member ∧
    target.LeadsToText s

/-- The text of a literal that occurs in a node, or that something in it leads to. -/
def Supplies (n : Node) (s : String) : Prop :=
  ∃ m, ReflTransGen Holds n m ∧ m.LeadsToText s

/-- That a launch on this line stands in a node, whose argument tells this text. -/
def Launches (cfg : Config) (n : Node) (s : String) (line : Int) : Prop :=
  ∃ callee arguments argument, ReflTransGen Holds n (.invocation line callee arguments) ∧
    callee.isLaunch cfg = true ∧ arguments.get? 0 = .ok argument ∧ argument.Tells s

end Node

/-- The text of a literal that occurs in a body, or that something in it leads to. -/
def Sequence.Supplies (body : Sequence) (s : String) : Prop :=
  ∃ n ∈ body.members, n.Supplies s

/-- That a launch on this line stands in a body, whose argument tells this text. -/
def Sequence.Launches (cfg : Config) (body : Sequence) (s : String) (line : Int) : Prop :=
  ∃ n ∈ body.members, n.Launches cfg s line

namespace Sequence

theorem members_of_toList? {field : Sequence} {items : List Node} (h : field.toList? = .ok items) :
    field.members = items := by
  cases field with
  | nodes items' =>
      obtain rfl := Except.ok.inj h
      rfl
  | lone n =>
      cases hp : n.parts? with
      | none => simp [toList?, hp] at h
      | some parts =>
          rw [toList?, hp] at h
          obtain rfl := Except.ok.inj h
          simp [members, hp]

theorem mem_of_partAt? {type : String} {parts : List Node} {index : Nat} {n : Node}
    (h : partAt? type parts index = .ok n) : n ∈ parts := by
  unfold partAt? at h
  split at h
  · obtain rfl := Except.ok.inj h
    exact List.mem_of_getElem? ‹_›
  · cases h

theorem mem_members_of_get? {field : Sequence} {index : Nat} {n : Node}
    (h : field.get? index = .ok n) : n ∈ field.members := by
  unfold get? at h
  split at h
  · exact mem_of_partAt? h
  · exact mem_of_partAt? h
  · have listed := mem_of_partAt? h
    simpa [members, Node.parts?, Datum.parts?] using listed
  · cases h
  · cases h

end Sequence

namespace Node

theorem leads_behindIndirection (n : Node) : ReflTransGen Leads n n.behindIndirection := by
  cases n with
  | indirection line target => exact .single .operand
  | bare | literal | identifier | memberAccess | invocation | keyedElement | positionalElement
  | compositeValue | assignment | closure | iteration | declaration | other => exact .refl

theorem mem_of_valueFor? {targets : Datum} {values : Sequence} {ranged : Bool} {name : Datum}
    {v : Node} (h : valueFor? targets values ranged name = .ok v) :
    v = null ∨ v ∈ values.members := by
  unfold valueFor? at h
  cases ranged with
  | true => exact .inl (Except.ok.inj h).symm
  | false =>
      obtain ⟨place, -, h⟩ := exists_of_bind_ok h
      cases place with
      | none => exact .inl (Except.ok.inj h).symm
      | some index =>
          obtain ⟨held, -, h⟩ := exists_of_bind_ok h
          obtain ⟨named, -, h⟩ := exists_of_bind_ok h
          split at h
          · exact .inr (Sequence.mem_members_of_get? h)
          · exact .inl (Except.ok.inj h).symm

theorem leads_bound {line line' : Int} {name targets : Datum} {values : Sequence} {ranged : Bool}
    {v : Node} (h : v ∈ values.members) :
    ReflTransGen Leads (.identifier line name (.assignment line' targets values ranged)) v :=
  .head .declared (.single (.value h))

theorem leads_of_followFrom {depth : Nat} {n m : Node} (h : n.followFrom depth = .ok m) :
    ReflTransGen Leads n m := by
  fun_induction followFrom depth n with
  | case1 | case2 | case3 | case4 | case5 | case7 | case8 | case9 => cases h
  | case6 line name depth line' targets values ranged unranged v bound found ih =>
      have held : v ∈ values.members := (mem_of_valueFor? found).resolve_left bound
      exact ((leads_bound held).trans v.leads_behindIndirection).trans (ih h)
  | case10 depth n unnamed bound =>
      obtain rfl := Except.ok.inj h
      exact .refl

theorem leads_of_follow {cfg : Config} {n m : Node} (h : n.follow cfg = .ok m) :
    ReflTransGen Leads n m :=
  n.leads_behindIndirection.trans (leads_of_followFrom h)

theorem leads_of_collection {cfg : Config} {source table : Node}
    (h : source.collection cfg = .ok table) : ReflTransGen Leads source table := by
  obtain ⟨n, followed, h⟩ := exists_of_bind_ok h
  cases n with
  | compositeValue line elements =>
      obtain rfl := Except.ok.inj h
      exact leads_of_follow followed
  | bare | literal | identifier | memberAccess | invocation | indirection | keyedElement
  | positionalElement | assignment | closure | iteration | declaration | other => cases h

theorem leads_of_loopBinding {depth : Nat} {n : Node} {values : Sequence}
    (h : n.loopBinding depth = .ok (some values)) :
    ∃ line targets ranged, ReflTransGen Leads n (.assignment line targets values ranged) := by
  fun_induction loopBinding depth n with
  | case1 | case3 | case4 | case6 => cases h
  | case2 depth line name line' targets values' second =>
      obtain rfl := Option.some.inj (Except.ok.inj h)
      exact ⟨line', targets, _, .single .declared⟩
  | case5 depth line name line' targets values' ranged unranged v found ih =>
      rcases mem_of_valueFor? found with rfl | held
      · cases depth <;> cases h
      · obtain ⟨line'', targets'', ranged'', reached⟩ := ih h
        exact ⟨line'', targets'', ranged'', (leads_bound held).trans reached⟩

theorem LeadsToText.of_leads {n m : Node} {s : String} (h : m.LeadsToText s)
    (hn : ReflTransGen Leads n m) : n.LeadsToText s := by
  obtain ⟨line, t, reached, text⟩ := h
  exact ⟨line, t, hn.trans reached, text⟩

theorem leadsToText_literal {line : Int} {text : Datum} {s : String}
    (h : literalText? text = .ok s) : (Node.literal line text).LeadsToText s := by
  cases text with
  | str t =>
      refine ⟨line, t, .refl, ?_⟩
      cases ht : Quoted.stripQuotes t with
      | error cause =>
          rw [literalText?, ht] at h
          cases h
      | ok u =>
          rw [literalText?, ht] at h
          obtain rfl := Except.ok.inj h
          rfl
  | list xs =>
      rw [literalText?] at h
      split at h <;> cases h
  | null | bool | int | float | dict => cases h

theorem leadsToText_of_literalValue {cfg : Config} {n : Node} {s : String}
    (h : n.literalValue cfg = .ok s) : n.LeadsToText s := by
  obtain ⟨m, followed, h⟩ := exists_of_bind_ok h
  cases m with
  | literal line text =>
      exact (leadsToText_literal (Obstacle.ok_of_orFault h)).of_leads (leads_of_follow followed)
  | bare | compositeValue | identifier | memberAccess | invocation | indirection | keyedElement
  | positionalElement | assignment | closure | iteration | declaration | other => cases h

theorem leads_elementValue (n : Node) : ReflTransGen Leads n n.elementValue := by
  cases n with
  | keyedElement line key value => exact .single .keyedValue
  | positionalElement line value => exact .single .positionalValue
  | bare | literal | identifier | memberAccess | invocation | indirection | compositeValue
  | assignment | closure | iteration | declaration | other => exact .refl

theorem leadsToText_of_positionName {cfg : Config} {n : Node} {s : String}
    (h : n.positionName cfg = .ok s) : n.LeadsToText s := by
  unfold positionName at h
  split at h
  · cases h
  · cases h
  · exact leadsToText_of_literalValue h

theorem exists_of_nameAmong {cfg : Config} {field : Datum} {elements : List Node} {s : String}
    (h : nameAmong cfg field elements = .ok s) : ∃ e ∈ elements, e.LeadsToText s := by
  induction elements with
  | nil => cases h
  | cons element rest ih =>
      cases element with
      | keyedElement line key value =>
          rw [nameAmong] at h
          cases hk : key.keyName? with
          | error cause => simp [hk] at h
          | ok name =>
              simp only [hk] at h
              split at h
              · exact ⟨_, .head _, (leadsToText_of_literalValue h).of_leads (.single .keyedValue)⟩
              · obtain ⟨e, he, text⟩ := ih h
                exact ⟨e, .tail _ he, text⟩
      | positionalElement line value =>
          exact ⟨_, .head _, (leadsToText_of_positionName h).of_leads (.single .positionalValue)⟩
      | bare | literal | identifier | memberAccess | invocation | indirection | compositeValue
      | assignment | closure | iteration | declaration | other =>
          exact ⟨_, .head _, leadsToText_of_positionName h⟩

theorem leads_of_elementList? {n e : Node} {elements : List Node}
    (h : n.elementList? = .ok elements) (he : e ∈ elements) : Leads n e := by
  obtain ⟨field, found, h⟩ := exists_of_bind_ok h
  cases n with
  | compositeValue line elements' =>
      obtain rfl := Except.ok.inj found
      rw [← Sequence.members_of_toList? h] at he
      exact .element he
  | bare | literal | identifier | memberAccess | invocation | indirection | keyedElement
  | positionalElement | assignment | closure | iteration | declaration | other => cases found

theorem leadsToText_of_rowName {cfg : Config} {field : Datum} {row : Node} {s : String}
    (h : row.rowName cfg field = .ok s) : row.LeadsToText s := by
  obtain ⟨elements, listed, h⟩ := exists_of_bind_ok h
  obtain ⟨_, -, h⟩ := exists_of_bind_ok h
  obtain ⟨e, he, text⟩ := exists_of_nameAmong h
  exact text.of_leads (.single (leads_of_elementList? (Obstacle.ok_of_orFault listed) he))

theorem search_of_name {element : Node} {line line' : Int} {search : Except Obstacle String}
    {s : String} (h : element.searchFinding line search = .name s line') : search = .ok s := by
  rcases search with (why | cause) | name
  · cases h
  · cases h
  · cases h
    rfl

/-- That the names among the readings of elements are texts the elements lead to. -/
def ReadsTexts (read : Node → Finding) : Prop :=
  ∀ element s line, read element = .name s line → element.LeadsToText s

theorem readsTexts_row (cfg : Config) (field : Datum) : ReadsTexts (rowFinding cfg field) := by
  intro element s line h
  have toRow : ReflTransGen Leads element element.elementValue.behindIndirection :=
    element.leads_elementValue.trans element.elementValue.leads_behindIndirection
  unfold rowFinding at h
  split at h
  · rename_i row line' elements same
    exact (leadsToText_of_rowName (search_of_name h)).of_leads (same ▸ toRow)
  · cases h

theorem readsTexts_key (cfg : Config) : ReadsTexts (keyFinding cfg) := by
  intro element s line h
  unfold keyFinding at h
  split at h
  · exact (leadsToText_of_literalValue (search_of_name h)).of_leads (.single .key)
  · cases h

theorem readsTexts_value (cfg : Config) : ReadsTexts (valueFinding cfg) := by
  intro element s line h
  obtain ⟨_, -, found⟩ := exists_of_bind_ok (search_of_name h)
  exact (leadsToText_of_literalValue found).of_leads element.leads_elementValue

def NamesIn (L : String → Prop) (r : Except Fault (List Finding)) : Prop :=
  ∀ fs, r = .ok fs → ∀ s line, Finding.name s line ∈ fs → L s

section

variable {L M : String → Prop} {r : Except Fault (List Finding)}

theorem NamesIn.mono (h : NamesIn L r) (hm : ∀ s, L s → M s) : NamesIn M r :=
  fun fs same s line hs => hm s (h fs same s line hs)

theorem namesIn_bind {α : Type} {reading : Except Fault α}
    {next : α → Except Fault (List Finding)} (h : ∀ a, reading = .ok a → NamesIn L (next a)) :
    NamesIn L (reading >>= next) := by
  intro fs same
  obtain ⟨a, read, found⟩ := exists_of_bind_ok same
  exact h a read fs found

theorem namesIn_name {text : String} (h : L text) (line : Int) :
    NamesIn L (.ok [.name text line]) := by
  intro fs same s line' hs
  obtain rfl := Except.ok.inj same
  obtain ⟨rfl, -⟩ := Finding.name.inj (List.mem_singleton.mp hs)
  exact h

theorem namesIn_ambiguous (why : Ambiguity) (line : Int) :
    NamesIn L (.ok [.ambiguous why line]) := by
  intro fs same s line' hs
  obtain rfl := Except.ok.inj same
  cases List.mem_singleton.mp hs

theorem namesIn_error (cause : Fault) : NamesIn L (.error cause) := by
  intro fs same
  cases same

end

theorem namesIn_collectionFindings (cfg : Config) (source : Node) {read : Node → Finding}
    (h : ReadsTexts read) : NamesIn source.LeadsToText (source.collectionFindings cfg read) := by
  unfold collectionFindings
  split
  · rename_i table found
    refine namesIn_bind fun elements listed fs same s line hs => ?_
    obtain rfl := Except.ok.inj same
    obtain ⟨element, he, named⟩ := List.mem_map.mp hs
    have toElement : ReflTransGen Leads source element :=
      (leads_of_collection found).tail (leads_of_elementList? listed he)
    exact (h element s line named).of_leads toElement
  · exact namesIn_ambiguous _ _
  · exact namesIn_error _

/-- The names read off the first of the values of a range clause. -/
theorem namesIn_source (cfg : Config) {n source : Node} {line : Int} {targets : Datum}
    {values : Sequence} {ranged : Bool}
    (hn : ReflTransGen Leads n (.assignment line targets values ranged))
    (found : values.get? 0 = .ok source) {read : Node → Finding} (h : ReadsTexts read) :
    NamesIn n.LeadsToText (source.collectionFindings cfg read) := by
  refine (namesIn_collectionFindings cfg source h).mono fun s text => ?_
  exact text.of_leads (hn.tail (.value (Sequence.mem_members_of_get? found)))

theorem namesIn_followedFindings (cfg : Config) (line : Int) (name : Datum) (declared : Node) :
    NamesIn (Node.identifier line name declared).LeadsToText
      (followedFindings cfg line name declared) := by
  unfold followedFindings
  split
  · rename_i found
    refine namesIn_bind fun text same => namesIn_name ?_ line
    exact (leadsToText_literal same).of_leads (leads_of_follow found)
  · exact namesIn_bind fun kind _ => namesIn_ambiguous _ _
  · exact namesIn_ambiguous _ _
  · exact namesIn_error _

theorem namesIn_identifierFindings (cfg : Config) (line : Int) (name : Datum) (declared : Node) :
    NamesIn (Node.identifier line name declared).LeadsToText
      (identifierFindings cfg line name declared) := by
  unfold identifierFindings
  split
  · unfold rangedFindings
    split
    · exact namesIn_ambiguous _ _
    · refine namesIn_bind fun among _ => ?_
      cases among with
      | false => exact namesIn_ambiguous _ _
      | true =>
          refine namesIn_bind fun source found => namesIn_bind fun first _ => ?_
          cases first with
          | true => exact namesIn_source cfg (.single .declared) found (readsTexts_key cfg)
          | false => exact namesIn_source cfg (.single .declared) found (readsTexts_value cfg)
  · exact namesIn_followedFindings cfg line name declared

/-- Every name read off an argument is the text of a literal that the argument tells. -/
theorem namesIn_nameFindings (cfg : Config) (argument : Node) :
    NamesIn argument.Tells (argument.nameFindings cfg) := by
  cases argument with
  | literal line text =>
      exact namesIn_bind fun text same => namesIn_name (.inl (leadsToText_literal same)) line
  | memberAccess line target member =>
      refine namesIn_bind fun loop bound => ?_
      cases loop with
      | none => exact namesIn_ambiguous _ _
      | some values =>
          obtain ⟨line', targets, ranged, reached⟩ := leads_of_loopBinding bound
          refine namesIn_bind fun source found => ?_
          refine (namesIn_source cfg reached found (readsTexts_row cfg member)).mono fun s text =>
            ?_
          exact .inr ⟨line, target, member, rfl, text⟩
  | identifier line name declared =>
      exact (namesIn_identifierFindings cfg line name declared).mono fun s text => .inl text
  | bare value => exact namesIn_error _
  | invocation | indirection | keyedElement | positionalElement | compositeValue | assignment
  | closure | iteration | declaration | other => exact namesIn_ambiguous _ _

section

variable {cfg : Config} {n m : Node} {s : String} {line : Int}

theorem Tells.supplies (h : n.Tells s) : n.Supplies s := by
  rcases h with text | ⟨line, target, member, rfl, text⟩
  · exact ⟨n, .refl, text⟩
  · exact ⟨target, .single .target, text⟩

theorem Launches.of_holds (h : m.Launches cfg s line) (hn : Holds n m) : n.Launches cfg s line := by
  obtain ⟨callee, arguments, argument, reached, launch⟩ := h
  exact ⟨callee, arguments, argument, .head hn reached, launch⟩

theorem Launches.supplies (h : n.Launches cfg s line) : n.Supplies s := by
  obtain ⟨callee, arguments, argument, reached, -, first, told⟩ := h
  obtain ⟨m, inside, text⟩ := told.supplies
  have held : Holds (.invocation line callee arguments) argument :=
    .argument (Sequence.mem_members_of_get? first)
  exact ⟨m, reached.trans (.head held inside), text⟩

end

end Node

end TestRoster
