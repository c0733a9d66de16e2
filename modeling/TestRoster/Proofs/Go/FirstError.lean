import TestRoster.Go.SourceTree

/-!
The syntax error that is reported.

A parser flags the nodes that hold a syntax error, and the search for an error looks only into
flagged children. Where the flags tell the truth it finds the first node, in reading order, that
marks an error. No reading of a node asks for its flag, so a source whose errors are tolerated has
the tree that it would have without any flags.
-/
namespace TestRoster.Go

def Info.unflagged (i : Info) : Info :=
  { i with flagged := false }

namespace Cst

mutual

/-- The nodes of a tree in reading order: every node stands before its children, and these follow
one another. -/
def nodes : Cst → List Cst
  | .node i cs => .node i cs :: nodesAmong cs

def nodesAmong : List Cst → List Cst
  | [] => []
  | c :: cs => nodes c ++ nodesAmong cs

end

mutual

def unflagged : Cst → Cst
  | .node i cs => .node i.unflagged (unflaggedAll cs)

def unflaggedAll : List Cst → List Cst
  | [] => []
  | c :: cs => unflagged c :: unflaggedAll cs

end

/-- Whether a node, or one below it, marks a syntax error. -/
def holdsError (c : Cst) : Bool :=
  c.nodes.any (·.info.isError)

/-- That every node of a tree is flagged exactly if it holds a syntax error. -/
def HasTrueFlags (root : Cst) : Prop :=
  ∀ c ∈ root.nodes, c.info.flagged = c.holdsError

instance (root : Cst) : Decidable root.HasTrueFlags :=
  inferInstanceAs (Decidable (∀ c ∈ root.nodes, c.info.flagged = c.holdsError))

theorem mem_nodes : ∀ c : Cst, c ∈ c.nodes
  | .node _ _ => List.mem_cons_self

theorem find?_nodes_of_clean {c : Cst} (clean : c.holdsError = false) :
    c.nodes.find? (·.info.isError) = none := by
  rw [List.find?_eq_none]
  intro d member marks
  have holds : c.holdsError = true := List.any_eq_true.mpr ⟨d, member, marks⟩
  rw [clean] at holds
  cases holds

mutual

theorem firstError?_eq_find? (c : Cst)
    (told : ∀ d ∈ c.nodes, d.holdsError = true → d.info.flagged = true) :
    c.firstError? = (c.nodes.find? (·.info.isError)).map info := by
  cases c with
  | node i cs =>
      have below := firstErrorAmong?_eq_find? cs fun d member =>
        told d (List.mem_cons_of_mem _ member)
      rw [firstError?, nodes, List.find?_cons]
      cases marks : i.isError with
      | true => simp only [info, marks, if_true, Option.map_some]
      | false => simp only [info, marks, below, Bool.false_eq_true, if_false]

theorem firstErrorAmong?_eq_find? (cs : List Cst)
    (told : ∀ d ∈ nodesAmong cs, d.holdsError = true → d.info.flagged = true) :
    firstErrorAmong? cs = ((nodesAmong cs).find? (·.info.isError)).map info := by
  cases cs with
  | nil => rfl
  | cons c rest =>
      have first := firstError?_eq_find? c fun d member =>
        told d (List.mem_append_left _ member)
      have later := firstErrorAmong?_eq_find? rest fun d member =>
        told d (List.mem_append_right _ member)
      rw [firstErrorAmong?, nodesAmong, List.find?_append, first, later]
      cases holds : c.holdsError with
      | true =>
          have flagged := told c (List.mem_append_left _ c.mem_nodes) holds
          rw [flagged, Bool.true_or, if_pos rfl]
          cases c.nodes.find? (·.info.isError) <;> rfl
      | false =>
          -- looked into or not, the child yields nothing
          rw [find?_nodes_of_clean holds, Option.none_or]
          exact ite_self _

end

/-- A flagged tree whose flags tell the truth has a first node that marks an error, and the search
finds it. -/
theorem HasTrueFlags.first {root : Cst} (flags : root.HasTrueFlags)
    (flagged : root.info.flagged = true) :
    ∃ e, root.nodes.find? (·.info.isError) = some e ∧ root.firstError? = some e.info := by
  have found := root.firstError?_eq_find? fun d member holds => (flags d member).trans holds
  have holds : root.holdsError = true := (flags root root.mem_nodes).symm.trans flagged
  have some : (root.nodes.find? (·.info.isError)).isSome = true :=
    List.find?_isSome.mpr (List.any_eq_true.mp holds)
  obtain ⟨e, first⟩ := Option.isSome_iff_exists.mp some
  refine ⟨e, first, ?_⟩
  rw [found, first]
  rfl

end Cst

namespace Reading

/-- A reading without the flags that it passes on. -/
def unflag (r : Reading) : Reading :=
  { r with info := r.info.unflagged, partInfos := r.partInfos.map Info.unflagged }

section

variable (src : Source) (i : Info) (children : List Reading)

theorem named_unflag : named (children.map unflag) = (named children).map unflag :=
  List.filter_map

theorem at?_unflag (field : String) :
    at? (children.map unflag) field = (at? children field).map unflag :=
  List.find?_map

theorem allAt_unflag (field : String) :
    allAt (children.map unflag) field = (allAt children field).map unflag :=
  List.filter_map

theorem hasToken_unflag (kind : String) :
    hasToken (children.map unflag) kind = hasToken children kind :=
  List.any_map

theorem expressionsAt_unflag (field : String) :
    expressionsAt (children.map unflag) field = expressionsAt children field := by
  rw [expressionsAt, at?_unflag, Option.map_map]
  rfl

theorem expressionAt_unflag (field : String) :
    expressionAt (children.map unflag) field = expressionAt children field := by
  rw [expressionAt, at?_unflag, Option.map_map]
  rfl

theorem blockAt_unflag (field : String) :
    blockAt (children.map unflag) field = blockAt children field := by
  rw [blockAt, at?_unflag, Option.map_map]
  rfl

theorem parametersAt_unflag (field : String) :
    parametersAt (children.map unflag) field = parametersAt children field := by
  rw [parametersAt, at?_unflag, Option.map_map]
  rfl

theorem textAt_unflag (field : String) :
    textAt src (children.map unflag) field = textAt src children field := by
  rw [textAt, at?_unflag, Option.map_map]
  rfl

theorem partTextsAt_unflag (field : String) :
    partTextsAt src (children.map unflag) field = partTextsAt src children field := by
  rw [partTextsAt, at?_unflag, partTextsAt]
  cases at? children field with
  | none => rfl
  | some c => exact List.map_map

theorem elementsOf_unflag : elementsOf (children.map unflag) = elementsOf children := by
  rw [elementsOf, named_unflag, List.map_map]
  rfl

theorem expressionOf_unflag :
    expressionOf src i.unflagged (children.map unflag) = expressionOf src i children := by
  unfold expressionOf
  simp only [named_unflag, at?_unflag, expressionsAt_unflag, expressionAt_unflag, textAt_unflag,
    parametersAt_unflag, blockAt_unflag, elementsOf_unflag, Option.map_map]
  cases named children <;> cases at? children "operator" <;> cases at? children "operand" <;> rfl

theorem elementOf_unflag (expression : Expr) :
    elementOf src i.unflagged (children.map unflag) expression =
      elementOf src i children expression := by
  unfold elementOf
  rw [named_unflag]
  rcases named children with _ | ⟨key, _ | ⟨value, _ | _⟩⟩ <;> rfl

theorem declaredOf_unflag :
    declaredOf src i.unflagged (children.map unflag) = declaredOf src i children := by
  rw [declaredOf, allAt_unflag, List.map_map]
  rfl

theorem specOf_unflag : specOf src i.unflagged (children.map unflag) = specOf src i children := by
  rw [specOf, allAt_unflag, expressionsAt_unflag, List.map_map]
  rfl

theorem specsOf_unflag : specsOf (children.map unflag) = specsOf children := by
  rw [specsOf, named_unflag, List.flatMap_map]
  rfl

theorem assignmentOf_unflag (other : Stmt) :
    assignmentOf src i.unflagged (children.map unflag) other =
      assignmentOf src i children other := by
  unfold assignmentOf
  simp only [at?_unflag, expressionsAt_unflag]
  cases at? children "left" with
  | none => cases at? children "operator" <;> rfl
  | some left =>
      simp only [Option.map_some, Option.getD_some, unflag, List.all_map, List.map_map]
      cases at? children "operator" <;> rfl

theorem statementsOf_unflag :
    statementsOf src i.unflagged (children.map unflag) = statementsOf src i children := by
  unfold statementsOf
  simp only [named_unflag, blockAt_unflag, partTextsAt_unflag, expressionsAt_unflag,
    specsOf_unflag, assignmentOf_unflag, List.flatMap_map, List.map_map]
  rfl

theorem clausesOf_unflag :
    clausesOf src i.unflagged (children.map unflag) = clausesOf src i children := by
  unfold clausesOf
  simp only [partTextsAt_unflag, expressionAt_unflag, hasToken_unflag, at?_unflag, Option.map_map]
  rfl

theorem functionOf_unflag :
    functionOf src i.unflagged (children.map unflag) = functionOf src i children := by
  unfold functionOf
  simp only [textAt_unflag, parametersAt_unflag, blockAt_unflag, at?_unflag, Option.bind_map]
  rfl

/-- A node without flags is read as the node itself, in every role. -/
theorem combine_unflag :
    combine src i.unflagged (children.map unflag) = (combine src i children).unflag := by
  simp only [combine, unflag, expressionOf_unflag, elementOf_unflag, elementsOf_unflag,
    declaredOf_unflag, specOf_unflag, specsOf_unflag, statementsOf_unflag, clausesOf_unflag,
    functionOf_unflag, named_unflag, at?_unflag, Option.map_map, List.map_map, List.flatMap_map,
    List.findSome?_map]
  rfl

end

mutual

theorem ofCst_unflagged (src : Source) (c : Cst) :
    ofCst src c.unflagged = (ofCst src c).unflag := by
  cases c with
  | node i cs => rw [Cst.unflagged, ofCst, ofCsts_unflagged src cs, combine_unflag, ofCst]

theorem ofCsts_unflagged (src : Source) (cs : List Cst) :
    ofCsts src (Cst.unflaggedAll cs) = (ofCsts src cs).map unflag := by
  cases cs with
  | nil => rfl
  | cons c rest =>
      rw [Cst.unflaggedAll, ofCsts, ofCsts, ofCst_unflagged src c, ofCsts_unflagged src rest,
        List.map_cons]

end

end Reading

theorem File.ofCst_unflagged (src : Source) (root : Cst) :
    File.ofCst src root.unflagged = File.ofCst src root := by
  cases root with
  | node i cs =>
      simp only [File.ofCst, Cst.unflagged, Cst.children, Reading.ofCsts_unflagged,
        Reading.named_unflag, List.flatMap_map, List.filterMap_map]
      rfl

end TestRoster.Go

namespace TestRoster

/-- The reported syntax error is the first one. In a flagged tree whose flags tell the truth there
is a first node, in reading order, that marks an error. Parsing fails with the line of this node;
where errors are tolerated it logs this line and nothing else, and gives the source tree that it
gives, without failure and without a word, once all flags are cleared. -/
theorem first_syntax_error_is_reported (src : Go.Source) (path : String) {root : Go.Cst}
    (flags : root.HasTrueFlags) (flagged : root.info.flagged = true) :
    ∃ e, root.nodes.find? (·.info.isError) = some e ∧
      let line := src.line e.info.start
      SourceTree.ofCst src path false root = .error ⟨path, .malformed line⟩ ∧
      ∃ tree,
        SourceTree.ofCst src path true root =
          .ok (tree, [⟨.warning, path ++ ": syntax error at line " ++ toString line ++
            ", discovering what parsed"⟩]) ∧
        ∀ tolerate, SourceTree.ofCst src path tolerate root.unflagged = .ok (tree, []) := by
  obtain ⟨e, first, found⟩ := flags.first flagged
  have line : SourceTree.errorLine src root = src.line e.info.start := by
    rw [SourceTree.errorLine, found]
  refine ⟨e, first, ?_, SourceTree.build src path root, ?_, fun tolerate => ?_⟩
  · rw [SourceTree.ofCst, if_pos flagged, line]
    rfl
  · rw [SourceTree.ofCst, if_pos flagged, line]
    rfl
  · have unflagged : root.unflagged.info.flagged = false := by
      cases root
      rfl
    rw [SourceTree.ofCst, unflagged, if_neg Bool.false_ne_true, SourceTree.build,
      Go.File.ofCst_unflagged, SourceTree.build]

/-- A sound function, one that lacks a bracket in its parameters, and a stray bracket behind it. -/
theorem missing_bracket_is_reported_before_stray_one :
    let src := Go.Source.ofString "func a() {}\nfunc b( {}\n)\n"
    let node (kind : String) (start stop : Nat) (field : Option String) (flagged : Bool)
        (children : List Go.Cst) : Go.Cst :=
      .node ⟨kind, start, stop, field, false, false, flagged⟩ children
    let missing : Go.Cst := .node ⟨")", 19, 19, none, true, true, true⟩ []
    let root := node "source_file" 0 25 none true
      [node "function_declaration" 0 11 none false
          [node "identifier" 5 6 (some "name") false [],
            node "parameter_list" 6 8 (some "parameters") false [],
            node "block" 9 11 (some "body") false []],
        node "function_declaration" 12 22 none true
          [node "identifier" 17 18 (some "name") false [],
            node "parameter_list" 18 19 (some "parameters") true [missing],
            node "block" 20 22 (some "body") false []],
        node "ERROR" 23 24 none true []]
    root.HasTrueFlags ∧ root.info.flagged = true ∧
      SourceTree.ofCst src "b_test.go" false root = .error ⟨"b_test.go", .malformed 2⟩ ∧
      ∃ tree,
        SourceTree.ofCst src "b_test.go" true root =
          .ok (tree, [⟨.warning, "b_test.go: syntax error at line 2, discovering what parsed"⟩]) ∧
        SourceTree.ofCst src "b_test.go" false root.unflagged = .ok (tree, []) := by
  intro src node missing root
  have flags : root.HasTrueFlags := by decide +kernel
  obtain ⟨e, first, failed, tree, tolerated, unflagged⟩ :=
    first_syntax_error_is_reported src "b_test.go" flags rfl
  have itself : e = missing := (Option.some.inj first).symm
  have line : src.line e.info.start = 2 := by
    rw [itself]
    decide +kernel
  rw [line] at failed tolerated
  exact ⟨flags, rfl, failed, tree, tolerated, unflagged false⟩

end TestRoster
