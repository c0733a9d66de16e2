import TestRoster.Discovery.File

/-!
Comments never matter.

A reading asks its children for their parts, for those under a field name and for tokens; a comment
is none of these. Nor is it looked into for a syntax error. So a concrete tree with comments
inserted anywhere has the same readings, the same first error and the same source tree.
-/
namespace TestRoster.Go

/-- That a node is a comment as a parser puts it among the children of another node. -/
structure Info.LooseComment (i : Info) : Prop where
  comment : i.kind = "comment"
  named : i.anonymous = false
  fieldless : i.field = none
  present : i.missing = false
  unflagged : i.flagged = false

/-- That comments have been inserted into the second list of children, and into the nodes below. -/
inductive Commented : List Cst → List Cst → Prop where
  | nil : Commented [] []
  | child {i cs ds rest rest'} (inside : Commented cs ds) (later : Commented rest rest') :
      Commented (.node i cs :: rest) (.node i ds :: rest')
  | comment {c rest rest'} (h : c.info.LooseComment) (later : Commented rest rest') :
      Commented rest (c :: rest')

/-- No comment may have been inserted at all. -/
theorem Commented.refl : ∀ cs : List Cst, Commented cs cs
  | [] => .nil
  | .node _ cs :: rest => .child (refl cs) (refl rest)

/-- That a tree is another one with comments inserted. -/
structure Cst.WithComments (root commented : Cst) : Prop where
  info : commented.info = root.info
  children : Commented root.children commented.children

namespace Reading

/-- That a node finds the same in two lists of children, whatever it asks for. -/
structure Alike (children children' : List Reading) : Prop where
  named : named children' = named children
  at? (field : String) : at? children' field = at? children field
  allAt (field : String) : allAt children' field = allAt children field
  hasToken (kind : String) : hasToken children' kind = hasToken children kind

namespace Alike

variable {children children' : List Reading}

theorem refl (children : List Reading) : Alike children children :=
  ⟨rfl, fun _ => rfl, fun _ => rfl, fun _ => rfl⟩

theorem cons (r : Reading) (h : Alike children children') :
    Alike (r :: children) (r :: children') where
  named := by
    have rest := h.named
    simp only [Reading.named, List.filter_cons] at rest ⊢
    rw [rest]
  at? field := by
    have rest := h.at? field
    simp only [Reading.at?, List.find?_cons] at rest ⊢
    rw [rest]
  allAt field := by
    have rest := h.allAt field
    simp only [Reading.allAt, List.filter_cons] at rest ⊢
    rw [rest]
  hasToken kind := by
    have rest := h.hasToken kind
    simp only [Reading.hasToken, List.any_cons] at rest ⊢
    rw [rest]

/-- A comment is no part, has no field name and is no token. -/
theorem comment {r : Reading} (loose : r.info.LooseComment) (h : Alike children children') :
    Alike children (r :: children') where
  named := by
    have unnamed : r.info.isNamed = false := by
      simp [Info.isNamed, Info.isComment, loose.comment]
    rw [← h.named, Reading.named, List.filter_cons, unnamed]
    rfl
  at? field := by
    rw [← h.at? field, Reading.at?, List.find?_cons, loose.fieldless]
    rfl
  allAt field := by
    rw [← h.allAt field, Reading.allAt, List.filter_cons, loose.fieldless]
    rfl
  hasToken kind := by
    rw [← h.hasToken kind, Reading.hasToken, List.any_cons, loose.named]
    rfl

section

variable (src : Source) (i : Info) (h : Alike children children')

include h

theorem expressionsAt (field : String) :
    Reading.expressionsAt children' field = Reading.expressionsAt children field := by
  rw [Reading.expressionsAt, h.at?]
  rfl

theorem expressionAt (field : String) :
    Reading.expressionAt children' field = Reading.expressionAt children field := by
  rw [Reading.expressionAt, h.at?]
  rfl

theorem blockAt (field : String) :
    Reading.blockAt children' field = Reading.blockAt children field := by
  rw [Reading.blockAt, h.at?]
  rfl

theorem parametersAt (field : String) :
    Reading.parametersAt children' field = Reading.parametersAt children field := by
  rw [Reading.parametersAt, h.at?]
  rfl

theorem textAt (field : String) :
    Reading.textAt src children' field = Reading.textAt src children field := by
  rw [Reading.textAt, h.at?]
  rfl

theorem partTextsAt (field : String) :
    Reading.partTextsAt src children' field = Reading.partTextsAt src children field := by
  rw [Reading.partTextsAt, h.at?]
  rfl

theorem elementsOf : Reading.elementsOf children' = Reading.elementsOf children := by
  rw [Reading.elementsOf, h.named]
  rfl

theorem expressionOf :
    Reading.expressionOf src i children' = Reading.expressionOf src i children := by
  simp only [Reading.expressionOf, h.named, h.at?, h.expressionsAt, h.expressionAt, h.textAt,
    h.parametersAt, h.blockAt, h.elementsOf]

theorem elementOf (expression : Expr) :
    Reading.elementOf src i children' expression =
      Reading.elementOf src i children expression := by
  simp only [Reading.elementOf, h.named]

theorem declaredOf : Reading.declaredOf src i children' = Reading.declaredOf src i children := by
  rw [Reading.declaredOf, h.allAt]
  rfl

theorem specOf : Reading.specOf src i children' = Reading.specOf src i children := by
  rw [Reading.specOf, h.allAt, h.expressionsAt]
  rfl

theorem specsOf : Reading.specsOf children' = Reading.specsOf children := by
  rw [Reading.specsOf, h.named]
  rfl

theorem assignmentOf (other : Stmt) :
    Reading.assignmentOf src i children' other = Reading.assignmentOf src i children other := by
  simp only [Reading.assignmentOf, h.at?, h.expressionsAt]

theorem statementsOf :
    Reading.statementsOf src i children' = Reading.statementsOf src i children := by
  simp only [Reading.statementsOf, h.named, h.blockAt, h.partTextsAt, h.expressionsAt, h.specsOf,
    h.assignmentOf]

theorem clausesOf : Reading.clausesOf src i children' = Reading.clausesOf src i children := by
  simp only [Reading.clausesOf, h.partTextsAt, h.expressionAt, h.hasToken, h.at?]

theorem functionOf : Reading.functionOf src i children' = Reading.functionOf src i children := by
  simp only [Reading.functionOf, h.textAt, h.parametersAt, h.blockAt, h.at?]

/-- A node with such children has the same readings in every role. -/
theorem combine : Reading.combine src i children' = Reading.combine src i children := by
  simp only [Reading.combine, h.named, h.at?, h.expressionOf, h.elementOf, h.elementsOf,
    h.declaredOf, h.specOf, h.specsOf, h.statementsOf, h.clausesOf, h.functionOf]

end

end Alike

/-- Children with comments are alike, by induction on where the comments have been inserted. -/
theorem alike_of_commented (src : Source) {cs ds : List Cst} (h : Commented cs ds) :
    Alike (ofCsts src cs) (ofCsts src ds) := by
  induction h with
  | nil => exact .refl _
  | @child i cs ds rest rest' inside later ihInside ihLater =>
      have same : ofCst src (.node i ds) = ofCst src (.node i cs) := by
        simp only [ofCst, ihInside.combine]
      rw [ofCsts, ofCsts, same]
      exact ihLater.cons _
  | @comment c rest rest' loose later ih =>
      have info : (ofCst src c).info = c.info := by
        cases c
        rfl
      rw [ofCsts]
      exact ih.comment (info ▸ loose)

end Reading

/-- Comments are never looked into for a syntax error. -/
theorem firstErrorAmong?_of_commented {cs ds : List Cst} (h : Commented cs ds) :
    Cst.firstErrorAmong? ds = Cst.firstErrorAmong? cs := by
  induction h with
  | nil => rfl
  | @child i cs ds rest rest' inside later ihInside ihLater =>
      have same : Cst.firstError? (.node i ds) = Cst.firstError? (.node i cs) := by
        simp only [Cst.firstError?, ihInside]
      simp only [Cst.firstErrorAmong?, Cst.info, same, ihLater]
      rfl
  | comment loose later ih =>
      simp only [Cst.firstErrorAmong?, loose.unflagged, loose.present, ih]
      rfl

namespace Cst.WithComments

variable {root commented : Cst} (h : root.WithComments commented)

include h

theorem firstError?_eq : commented.firstError? = root.firstError? := by
  obtain ⟨info, children⟩ := h
  cases root
  cases commented
  simp only [Cst.info, Cst.children] at info children
  simp only [Cst.firstError?, info, firstErrorAmong?_of_commented children]

theorem ofCst_eq (src : Source) : File.ofCst src commented = File.ofCst src root := by
  have alike := Reading.alike_of_commented src h.children
  simp only [File.ofCst, alike.named]

end Cst.WithComments

end TestRoster.Go

namespace TestRoster

/-- Comments never matter. Wherever comments are inserted into a concrete tree, parsing ends with
the same source tree and the same log, or with the same failure. -/
theorem comments_never_matter (src : Go.Source) (path : String) (tolerate : Bool)
    {root commented : Go.Cst} (h : root.WithComments commented) :
    SourceTree.ofCst src path tolerate commented = SourceTree.ofCst src path tolerate root := by
  have build : SourceTree.build src path commented = SourceTree.build src path root := by
    rw [SourceTree.build, SourceTree.build, h.ofCst_eq]
  have line : SourceTree.errorLine src commented = SourceTree.errorLine src root := by
    rw [SourceTree.errorLine, SourceTree.errorLine, h.firstError?_eq]
  rw [SourceTree.ofCst, SourceTree.ofCst, h.info, build, line]

/-- A test that launches a subtest under a name in parentheses, with a comment before the statement
and one before the name. -/
theorem comments_around_name_never_matter :
    let src := Go.Source.ofString "TestA/*c*/(/*d*/\x60k\x60)t.Run"
    let comment (start stop : Nat) : Go.Cst :=
      .node ⟨"comment", start, stop, none, false, false, false⟩ []
    let name : Go.Cst := .node ⟨"raw_string_literal", 16, 19, none, false, false, false⟩ []
    let callee : Go.Cst :=
      .node ⟨"selector_expression", 20, 25, some "function", false, false, false⟩
        [.node ⟨"field_identifier", 22, 25, some "field", false, false, false⟩ []]
    let test (beforeStatement beforeName : List Go.Cst) : Go.Cst :=
      .node ⟨"source_file", 0, 25, none, false, false, false⟩
        [.node ⟨"function_declaration", 0, 25, none, false, false, false⟩
          [.node ⟨"identifier", 0, 5, some "name", false, false, false⟩ [],
            .node ⟨"block", 5, 25, some "body", false, false, false⟩
              (beforeStatement ++
                [.node ⟨"expression_statement", 10, 25, none, false, false, false⟩
                  [.node ⟨"call_expression", 10, 25, none, false, false, false⟩
                    [callee,
                      .node ⟨"argument_list", 10, 20, some "arguments", false, false, false⟩
                        [.node ⟨"parenthesized_expression", 10, 20, none, false, false, false⟩
                          (beforeName ++ [name])]]]])]]
    let root := test [] []
    let commented := test [comment 5 10] [comment 11 16]
    root.WithComments commented ∧
      SourceTree.ofCst src "a_test.go" false commented =
        SourceTree.ofCst src "a_test.go" false root ∧
      (FileOutcome.ofCst {} .tests src "a_test.go" commented).result.toOption.map
        (fun found => found.tests.map TestCase.name) = some ["TestA", "TestA/k"] := by
  intro src comment name callee test root commented
  have loose (start stop : Nat) : (comment start stop).info.LooseComment :=
    ⟨rfl, rfl, rfl, rfl, rfl⟩
  have inserted : root.WithComments commented := by
    refine ⟨rfl, .child (.child (.refl _) (.child (.comment (loose 5 10) ?_) .nil)) .nil⟩
    refine .child (.child (.child (.refl _) (.child ?_ .nil)) .nil) .nil
    exact .child (.comment (loose 11 16) (.refl _)) .nil
  refine ⟨inserted, comments_never_matter src "a_test.go" false inserted, ?_⟩
  decide +kernel

end TestRoster
