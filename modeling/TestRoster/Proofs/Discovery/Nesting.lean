import TestRoster.Proofs.Discovery.Containment
import TestRoster.Proofs.Discovery.Origin

/-!
The names of a body as a forest below its parent.

A launch names a part of its parent, and what is launched inside it is named below that name. Hence
every name is a path of texts of literals, and the path that it goes on from stands earlier in the
list.
-/
namespace TestRoster

/-- Names with their lines, in depth-first order below a parent. Every part of a name is launched on
some line. -/
inductive Nested (L : String → Int → Prop) : String → List (String × Int) → Prop where
  | nil {parent} : Nested L parent []
  | launch {parent segment line inside behind} (text : L segment line)
      (inner : Nested L (joinName parent segment) inside) (rest : Nested L parent behind) :
      Nested L parent ((joinName parent segment, line) :: inside ++ behind)

namespace Nested

variable {L : String → Int → Prop} {parent : String} {xs ys : List (String × Int)}

theorem append (h : Nested L parent xs) (k : Nested L parent ys) : Nested L parent (xs ++ ys) := by
  induction h with
  | nil => exact k
  | launch text inner rest _ ih =>
      rw [List.append_assoc]
      exact .launch text inner (ih k)

/-- Every name is a path whose last part is launched on its line, and the path it goes on from
stands earlier. -/
theorem path_at (h : Nested L parent xs) {j : Nat} {name : String} {line : Int}
    (hj : xs[j]? = some (name, line)) :
    ∃ path last, name = (path ++ [last]).foldl joinName parent ∧
      (∀ s ∈ path, ∃ line, L s line) ∧ L last line ∧
      (path = [] ∨ ∃ i < j, (xs.map Prod.fst)[i]? = some (path.foldl joinName parent)) := by
  induction h generalizing j with
  | nil => cases hj
  | @launch parent segment line' inside behind text inner rest ihInner ihRest =>
      rw [List.cons_append] at hj ⊢
      cases j with
      | zero =>
          obtain ⟨rfl, rfl⟩ := Prod.mk.inj (Option.some.inj hj)
          exact ⟨[], segment, rfl, nofun, text, .inl rfl⟩
      | succ j =>
          rw [List.getElem?_cons_succ] at hj
          simp only [List.map_cons, List.map_append]
          by_cases inInside : j < inside.length
          · -- below the launched name: the path starts with its segment
            rw [List.getElem?_append_left inInside] at hj
            obtain ⟨path, last, rfl, texts, launched, before⟩ := ihInner hj
            refine ⟨segment :: path, last, rfl, ?_, launched, .inr ?_⟩
            · exact List.forall_mem_cons.mpr ⟨⟨line', text⟩, texts⟩
            · rcases before with rfl | ⟨i, hi, found⟩
              · exact ⟨0, by omega, rfl⟩
              · refine ⟨i + 1, by omega, ?_⟩
                rw [List.getElem?_cons_succ, List.getElem?_append_left (by simp; omega), found]
                rfl
          · rw [List.getElem?_append_right (by omega)] at hj
            obtain ⟨path, last, rfl, texts, launched, before⟩ := ihRest hj
            refine ⟨path, last, rfl, texts, launched, ?_⟩
            rcases before with rfl | ⟨i, hi, found⟩
            · exact .inl rfl
            · refine .inr ⟨i + inside.length + 1, by omega, ?_⟩
              rw [List.getElem?_cons_succ, List.getElem?_append_right (by simp)]
              simpa using found

end Nested

namespace Node

def NestedAccount (L : String → Int → Prop) (parent : String) (r : Except Fault (List Finding)) :
    Prop :=
  ∀ fs, r = .ok fs → Nested L parent (fs.filterMap Finding.name?)

section

variable {L : String → Int → Prop} {parent : String}

theorem nestedAccount_ok {fs : List Finding} (h : Nested L parent (fs.filterMap Finding.name?)) :
    NestedAccount L parent (.ok fs) := by
  intro gs same
  obtain rfl := Except.ok.inj same
  exact h

theorem nestedAccount_error (cause : Fault) : NestedAccount L parent (.error cause) := by
  intro fs h
  cases h

/-- Findings without names. -/
theorem nested_unnamed {fs : List Finding} (h : ∀ f ∈ fs, f.name? = none) :
    Nested L parent (fs.filterMap Finding.name?) := by
  rw [List.filterMap_eq_nil_iff.mpr h]
  exact .nil

theorem nested_containedFindings (statement : Node) {r : Except Fault (List Finding)}
    (h : NestedAccount L parent r) :
    Nested L parent ((containedFindings parent statement r).filterMap Finding.name?) := by
  cases r with
  | error cause => exact .nil
  | ok fs => exact h fs rfl

theorem nested_unnamedFindings (cfg : Config) (line : Int) :
    Nested L parent ((unnamedFindings cfg parent line).filterMap Finding.name?) := by
  unfold unnamedFindings
  split <;> exact .nil

theorem nested_launchedFindings (line : Int) {inside : String → List Finding}
    (hi : ∀ name, Nested L name ((inside name).filterMap Finding.name?)) {segments : List String}
    (hs : ∀ s ∈ segments, L s line) :
    Nested L parent
      ((launchedFindings parent line inside segments).filterMap Finding.name?) := by
  induction segments with
  | nil => exact .nil
  | cons segment rest ih =>
      have below := hi (joinName parent segment)
      have behind := ih fun s h => hs s (.tail _ h)
      rw [launchedFindings, List.flatMap_cons, List.filterMap_append]
      exact .launch (hs segment (.head _)) below behind

theorem nested_namedFindings (cfg : Config) (line : Int) {inside : String → List Finding}
    (hi : ∀ name, Nested L name ((inside name).filterMap Finding.name?))
    {r : Except Fault (List Finding)} (hr : NamesIn (L · line) r) :
    NestedAccount L parent (r.map (namedFindings cfg parent line inside)) := by
  cases r with
  | error cause => exact nestedAccount_error cause
  | ok fs =>
      refine nestedAccount_ok ?_
      rw [namedFindings, List.filterMap_append]
      refine (nested_unnamed fun f hf => ?_).append ?_
      · simpa using (List.mem_filter.mp hf).2
      split
      · split
        · refine nested_unnamed fun f hf => ?_
          obtain ⟨issue, -, rfl⟩ := List.mem_map.mp hf
          rfl
        · exact .nil
      · refine nested_launchedFindings line hi fun s hs => ?_
        simp only [Resolution.ofFindings, List.map_filterMap, List.mem_filterMap] at hs
        obtain ⟨f, hf, named⟩ := hs
        cases f with
        | name text line' =>
            obtain rfl := Option.some.inj named
            exact hr fs rfl text line' hf
        | ambiguous | fault | note => cases named

end

mutual

theorem nested_bodyFindings (cfg : Config) {L : String → Int → Prop} (parent : String)
    (body : Sequence) (hL : ∀ s line, body.Launches cfg s line → L s line) :
    Nested L parent ((bodyFindings cfg parent body).filterMap Finding.name?) := by
  cases body with
  | nodes statements =>
      rw [bodyFindings]
      exact nested_eachFindings cfg parent statements fun n hn s line hs => hL s line ⟨n, hn, hs⟩
  | lone n =>
      rw [bodyFindings]
      split
      · exact .nil
      · refine nested_unnamed fun f hf => ?_
        obtain ⟨part, -, rfl⟩ := List.mem_map.mp hf
        rfl

theorem nested_eachFindings (cfg : Config) {L : String → Int → Prop} (parent : String)
    (statements : List Node) (hL : ∀ n ∈ statements, ∀ s line, n.Launches cfg s line → L s line) :
    Nested L parent ((eachFindings cfg parent statements).filterMap Finding.name?) := by
  cases statements with
  | nil =>
      rw [eachFindings]
      exact .nil
  | cons statement rest =>
      rw [eachFindings, List.filterMap_append]
      exact (nested_containedFindings statement
          (nested_statementFindings cfg parent statement (hL statement (.head _)))).append
        (nested_eachFindings cfg parent rest fun n hn => hL n (.tail _ hn))

theorem nested_statementFindings (cfg : Config) {L : String → Int → Prop} (parent : String)
    (statement : Node) (hL : ∀ s line, statement.Launches cfg s line → L s line) :
    NestedAccount L parent (statementFindings cfg parent statement) := by
  cases statement with
  | bare value => exact nestedAccount_error _
  | iteration line source body =>
      rw [statementFindings]
      refine nestedAccount_ok (nested_bodyFindings cfg parent body fun s line' hs => ?_)
      obtain ⟨n, hn, launched⟩ := hs
      exact hL s line' (launched.of_holds (.loopBody hn))
  | invocation line callee arguments =>
      rw [statementFindings]
      split
      · rename_i launch
        exact nested_launchFindings cfg parent line arguments
          (fun argument s first told =>
            hL s line ⟨callee, arguments, argument, .refl, launch, first, told⟩)
          fun n hn s line' hs => hL s line' (hs.of_holds (.argument hn))
      · exact nestedAccount_ok .nil
  | literal | identifier | memberAccess | indirection | keyedElement | positionalElement
  | compositeValue | assignment | closure | declaration | other => exact nestedAccount_ok .nil

theorem nested_launchFindings (cfg : Config) {L : String → Int → Prop} (parent : String)
    (line : Int)
    (arguments : Sequence)
    (hName : ∀ argument s, arguments.get? 0 = .ok argument → argument.Tells s → L s line)
    (hL : ∀ n ∈ arguments.members, ∀ s line, n.Launches cfg s line → L s line) :
    NestedAccount L parent (launchFindings cfg parent line arguments) := by
  match arguments with
  | .nodes [] => exact nestedAccount_ok (nested_unnamedFindings cfg line)
  | .nodes (argument :: rest) =>
      rw [launchFindings]
      exact nested_namedFindings cfg line
        (fun name => nested_functionFindings cfg name rest fun n hn => hL n (.tail _ hn))
        ((namesIn_nameFindings cfg argument).mono (hName argument · rfl))
  | .lone n =>
      rw [launchFindings]
      split
      · exact nestedAccount_ok (nested_unnamedFindings cfg line)
      · intro fs same
        obtain ⟨argument, first, found⟩ := exists_of_bind_ok same
        exact nested_namedFindings cfg line (fun _ => .nil)
          ((namesIn_nameFindings cfg argument).mono (hName argument · first)) fs found

theorem nested_functionFindings (cfg : Config) {L : String → Int → Prop} (parent : String)
    (rest : List Node) (hL : ∀ n ∈ rest, ∀ s line, n.Launches cfg s line → L s line) :
    Nested L parent ((functionFindings cfg parent rest).filterMap Finding.name?) := by
  match rest with
  | .closure line body :: _ =>
      rw [functionFindings]
      refine nested_bodyFindings cfg parent body fun s line' hs => ?_
      obtain ⟨n, hn, launched⟩ := hs
      exact hL _ (.head _) s line' (launched.of_holds (.closureBody hn))
  | [] => exact .nil
  | .bare _ :: _ | .literal .. :: _ | .identifier .. :: _ | .memberAccess .. :: _
  | .invocation .. :: _ | .indirection .. :: _ | .keyedElement .. :: _
  | .positionalElement .. :: _ | .compositeValue .. :: _ | .assignment .. :: _
  | .iteration .. :: _ | .declaration .. :: _ | .other .. :: _ => exact .nil

end

end Node

theorem Sequence.Launches.supplies {cfg : Config} {body : Sequence} {s : String} {line : Int}
    (h : body.Launches cfg s line) : body.Supplies s := by
  obtain ⟨n, hn, launched⟩ := h
  exact ⟨n, hn, launched.supplies⟩

/-- The text of a literal holds no quote of either kind. -/
theorem Quoted.no_quote_of_stripQuotes {text s : String} (h : stripQuotes text = .ok s) :
    '"' ∉ s.toList ∧ '\x60' ∉ s.toList := by
  have dropped (cs : List Char) :
      '"' ∉ (String.ofList (dropQuotes cs)).toList ∧
        '\x60' ∉ (String.ofList (dropQuotes cs)).toList := by
    simp [dropQuotes]
  simp only [stripQuotes] at h
  split at h
  · cases hu : unescape (String.ofList text.toList.tail.dropLast) with
    | error cause =>
        rw [hu] at h
        cases h
    | ok inner =>
        rw [hu] at h
        obtain rfl := Except.ok.inj h
        exact dropped _
  · obtain rfl := Except.ok.inj h
    exact dropped _

theorem Sequence.no_quote_of_supplies {body : Sequence} {s : String} (h : body.Supplies s) :
    '"' ∉ s.toList ∧ '\x60' ∉ s.toList := by
  obtain ⟨_, _, _, _, _, _, _, text⟩ := h
  exact Quoted.no_quote_of_stripQuotes text

/-- No name is invented, orphaned or lost. Each is a path below the parent, made of texts of
literals that occur in the body or that something in it leads to; the path it goes on from stands
earlier; and the list of names pairs with the list of lines. -/
theorem names_are_paths_of_literals (cfg : Config) (parent : String) (body : Sequence) :
    ∃ r, (Node.resolve (cfg.withStrict false) parent body).result = .ok r ∧
      (∀ j : Fin r.names.length, ∃ path last,
        r.names[j] = (path ++ [last]).foldl joinName parent ∧
        (∀ s ∈ path ++ [last], body.Supplies s ∧ '"' ∉ s.toList ∧ '\x60' ∉ s.toList) ∧
        (path = [] ∨ ∃ i < j, r.names[i] = path.foldl joinName parent)) ∧
      r.names.length = r.lines.length ∧
      ∀ (found : Discovery) (file : String),
        (found.addSubtests file r).tests.map TestCase.name =
          found.tests.map TestCase.name ++ r.names ∧
        (found.addSubtests file r).tests.map TestCase.line =
          found.tests.map TestCase.line ++ r.lines := by
  refine ⟨_, Node.resolve_tolerant cfg parent body, fun j => ?_, ?_, fun found file => ?_⟩
  · let told := (Node.bodyFindings cfg parent body).filterMap Finding.name?
    have forest : Nested (body.Launches cfg) parent told :=
      Node.nested_bodyFindings cfg parent body fun s line launched => launched
    have bound : j < told.length := by simpa [Resolution.ofFindings] using j.isLt
    obtain ⟨path, last, same, texts, launched, before⟩ :=
      forest.path_at (List.getElem?_eq_getElem bound)
    have supplied : ∀ s ∈ path ++ [last], body.Supplies s := by
      refine List.forall_mem_append.mpr ⟨fun s hs =>
        ?_, List.forall_mem_singleton.mpr launched.supplies⟩
      obtain ⟨line, launched⟩ := texts s hs
      exact launched.supplies
    refine ⟨path, last, (List.getElem_map ..).trans same, fun s hs =>
      ⟨supplied s hs, Sequence.no_quote_of_supplies (supplied s hs)⟩, before.imp_right ?_⟩
    rintro ⟨i, hi, found⟩
    obtain ⟨bound, found⟩ := List.getElem?_eq_some_iff.mp found
    exact ⟨⟨i, bound⟩, hi, found⟩
  · simp [Resolution.ofFindings]
  · simp [Discovery.addSubtests, Resolution.ofFindings, List.zip_map', Function.comp_def]

end TestRoster
