import TestRoster.Proofs.Roster.Document

/-!
Which documents are rejected, and as what.

Reading stops at the first thing that is amiss: the head of the document, or the first item that is
no test. What stops it decides the kind of the fault. A field that is missing and a text that is no
number are faults of a value; a value that has another type than is needed, or a line without bound,
is not told as such.
-/
namespace TestRoster

open Datum

/-- A value that is no line of a test, with the kind of the fault. -/
inductive NoLine : Datum → String → Prop
  | null : NoLine .null "TypeError"
  | list (items : List Datum) : NoLine (.list items) "TypeError"
  | dict (fields : List (String × Datum)) : NoLine (.dict fields) "TypeError"
  | notANumber : NoLine (.float .nan) "ValueError"
  | infinite (negative : Bool) : NoLine (.float (.infinite negative)) "OverflowError"
  | text {s : String} {fault : NumeralFault} (stops : Numeral.parse s.toList = .error fault) :
      NoLine (.str s) "ValueError"

/-- An item that is no test, with the kind of the fault. -/
inductive NoTest : Datum → String → Prop
  | other {d : Datum} (other : ∀ fields, d ≠ .dict fields) : NoTest d "TypeError"
  | name {fields : List (String × Datum)} (missing : field? fields "name" = none) :
      NoTest (.dict fields) "ValueError"
  | file {fields : List (String × Datum)} (missing : field? fields "file" = none) :
      NoTest (.dict fields) "ValueError"
  | line {fields : List (String × Datum)} {name file line : Datum} {kind : String}
      (named : field? fields "name" = some name) (filed : field? fields "file" = some file)
      (lined : field? fields "line" = some line) (stops : NoLine line kind) :
      NoTest (.dict fields) kind

/-- The fields of a document that is rejected, with the kind of the fault. The tests may be anything
with parts; only the first part that is no test counts. -/
inductive Roster.Rejected (fields : List (String × Datum)) : String → Prop
  | noVersion (missing : field? fields "version" = none) : Rejected fields "ValueError"
  | noTests (missing : field? fields "tests" = none) : Rejected fields "ValueError"
  | version {version : Datum} (there : field? fields "version" = some version)
      (other : version ≠ .str documentVersion) : Rejected fields "ValueError"
  | tests {tests : Datum} (version : field? fields "version" = some (.str documentVersion))
      (there : field? fields "tests" = some tests) (whole : tests.parts? = none) :
      Rejected fields "TypeError"
  | item {before after : List Datum} {item : Datum} {kind : String}
      (version : field? fields "version" = some (.str documentVersion))
      (there : (field? fields "tests").bind parts? = some (before ++ item :: after))
      (each : ∀ d ∈ before, ∃ fields t, d = .dict fields ∧ SavedTest.Told fields t)
      (stops : NoTest item kind) :
      Rejected fields kind

variable {d : Datum} {kind : String} {fields : List (String × Datum)}

theorem Datum.whole_error_iff :
    (∃ fault, d.whole = .error fault ∧ fault.label = kind) ↔ NoLine d kind := by
  constructor
  · rintro ⟨fault, stops, rfl⟩
    cases d with
    | null => cases stops; exact .null
    | list items => cases stops; exact .list items
    | dict fields => cases stops; exact .dict fields
    | bool b | int n => cases stops
    | float x =>
        cases x with
        | nan => cases stops; exact .notANumber
        | infinite negative => cases stops; exact .infinite negative
        | finite negative mantissa exponent => cases stops
    | str s =>
        cases parsed : Numeral.parse s.toList with
        | ok n => simp [whole, parsed] at stops
        | error cause =>
            cases cause <;> simp only [whole, parsed, Except.error.injEq]
              at stops <;> subst stops <;>
              exact .text parsed
  · intro stops
    cases stops with
    | null | list | dict | notANumber | infinite => exact ⟨_, rfl, rfl⟩
    | @text s cause parsed =>
        cases cause <;> exact ⟨_, by rw [whole, parsed], rfl⟩

theorem NoLine.kind_mem (h : NoLine d kind) :
    kind ∈ ["TypeError", "ValueError", "OverflowError"] := by
  cases h <;> decide

theorem NoTest.kind_mem (h : NoTest d kind) :
    kind ∈ ["TypeError", "ValueError", "OverflowError"] := by
  cases h with
  | other | name | file => decide
  | line _ _ _ stops => exact stops.kind_mem

theorem Roster.Rejected.kind_mem (h : Roster.Rejected fields kind) :
    kind ∈ ["TypeError", "ValueError", "OverflowError"] := by
  cases h with
  | noVersion | noTests | version | tests => decide
  | item _ _ _ stops => exact stops.kind_mem

namespace SavedTest

/-- A line is never stopped by a missing field, so its faults are told as they are. -/
theorem label_testFault {fault : Misuse} (stops : d.whole = .error fault) :
    (Roster.testFault fault).label = fault.label := by
  cases fault with
  | missing field =>
      have kind := (Datum.whole_error_iff.mp ⟨_, stops, rfl⟩).kind_mem
      exact absurd kind (by simp [Misuse.label])
  | _ => rfl

theorem ofDatum_error_iff :
    (∃ fault, ofDatum d = .error fault ∧ (Roster.testFault fault).label = kind) ↔
      NoTest d kind := by
  constructor
  · rintro ⟨fault, stops, rfl⟩
    cases d with
    | dict fields =>
        cases named : field? fields "name" with
        | none =>
            cases (ofDatum_unnamed named).symm.trans stops
            exact .name named
        | some name =>
            cases filed : field? fields "file" with
            | none =>
                cases (ofDatum_unfiled named filed).symm.trans stops
                exact .file filed
            | some file =>
                have stops := error_of_map ((ofDatum_named named filed).symm.trans stops)
                rw [label_testFault stops]
                have noLine := Datum.whole_error_iff.mp ⟨fault, stops, rfl⟩
                cases lined : field? fields "line" with
                | none => rw [lined] at noLine; cases noLine
                | some line => rw [lined] at noLine; exact .line named filed lined noLine
    | _ =>
        cases stops
        exact .other (by simp)
  · intro stops
    cases stops with
    | other other =>
        cases d with
        | dict fields => exact absurd rfl (other fields)
        | _ => exact ⟨_, rfl, rfl⟩
    | name missing => exact ⟨_, ofDatum_unnamed missing, rfl⟩
    | @file fields missing =>
        cases named : field? fields "name" with
        | none => exact ⟨_, ofDatum_unnamed named, rfl⟩
        | some name => exact ⟨_, ofDatum_unfiled named missing, rfl⟩
    | line named filed lined noLine =>
        obtain ⟨fault, stops, rfl⟩ := Datum.whole_error_iff.mpr noLine
        refine ⟨fault, ?_, label_testFault stops⟩
        rw [ofDatum_named named filed, lined, Option.getD_some, stops]
        rfl

end SavedTest

namespace Roster

theorem readable_iff (d : Datum) : (∃ t, SavedTest.ofDatum d = .ok t) ↔
    ∃ fields t, d = .dict fields ∧ SavedTest.Told fields t := by
  simp only [SavedTest.ofDatum_eq_ok_iff]
  exact exists_comm

theorem ofDatum_error_iff :
    (∃ fault, ofDatum (.dict fields) = .error fault ∧ fault.label = kind) ↔
      Rejected fields kind := by
  constructor
  · rintro ⟨fault, stops, rfl⟩
    cases head fields with
    | noVersion missing =>
        cases (ofDatum_noVersion missing).symm.trans stops
        exact .noVersion missing
    | noTests there missing =>
        cases (ofDatum_noTests there missing).symm.trans stops
        exact .noTests missing
    | unknownVersion there held other =>
        cases (ofDatum_unknownVersion there held other).symm.trans stops
        exact .version there other
    | unlisted version held whole =>
        cases (ofDatum_unlisted version held whole).symm.trans stops
        exact .tests version held whole
    | @sound items version there =>
        rw [ofDatum_headed version there] at stops
        cases read : items.mapM SavedTest.ofDatum with
        | ok tests => rw [read] at stops; cases stops
        | error fault' =>
            rw [read] at stops
            cases stops
            obtain ⟨before, item, after, rfl, each, stops⟩ := mapM_eq_error_iff.mp read
            exact .item version there (fun d member => (readable_iff d).mp (each d member))
              (SavedTest.ofDatum_error_iff.mp ⟨_, stops, rfl⟩)
  · intro stops
    cases stops with
    | noVersion missing => exact ⟨_, ofDatum_noVersion missing, rfl⟩
    | noTests missing =>
        cases there : field? fields "version" with
        | none => exact ⟨_, ofDatum_noVersion there, rfl⟩
        | some version => exact ⟨_, ofDatum_noTests there missing, rfl⟩
    | version there other =>
        cases held : field? fields "tests" with
        | none => exact ⟨_, ofDatum_noTests there held, rfl⟩
        | some listed => exact ⟨_, ofDatum_unknownVersion there held other, rfl⟩
    | tests version held whole => exact ⟨_, ofDatum_unlisted version held whole, rfl⟩
    | item version there each noTest =>
        obtain ⟨fault, stops, rfl⟩ := SavedTest.ofDatum_error_iff.mpr noTest
        refine ⟨testFault fault, ?_, rfl⟩
        have read := fun d member => (readable_iff d).mpr (each d member)
        rw [ofDatum_headed version there, mapM_eq_error_iff.mpr ⟨_, _, _, rfl, read, stops⟩]
        rfl

end Roster

/-- A dictionary is read, or rejected as a wrong value. -/
def Roster.Judged (fields : List (String × Datum)) : Prop :=
  (∃ tests, Roster.ofDatum (.dict fields) = .ok tests) ∨
    ∃ fault, Roster.ofDatum (.dict fields) = .error fault ∧ fault.label = "ValueError"

/-- Every rejection is told by what is amiss first, with its kind. A dictionary is read or rejected
as a wrong value exactly if that is none of these: tests without parts, an item that is no
dictionary, and a line that is null, a list, a dictionary or infinite. -/
theorem documents_are_rejected_by_first_fault (fields : List (String × Datum)) :
    (∀ kind, (∃ fault, Roster.ofDatum (.dict fields) = .error fault ∧ fault.label = kind) ↔
      Roster.Rejected fields kind) ∧
    (Roster.Judged fields ↔
      ¬ (Roster.Rejected fields "TypeError" ∨ Roster.Rejected fields "OverflowError")) := by
  refine ⟨fun _ => Roster.ofDatum_error_iff, ?_⟩
  rw [Roster.Judged, ← Roster.ofDatum_error_iff, ← Roster.ofDatum_error_iff]
  cases outcome : Roster.ofDatum (.dict fields) with
  | ok tests => simp
  | error fault =>
      have kinds := (Roster.ofDatum_error_iff.mp ⟨fault, outcome, rfl⟩).kind_mem
      simp only [List.mem_cons, List.not_mem_nil, or_false] at kinds
      rcases kinds with kind | kind | kind <;> simp [kind]

/-- Documents that are neither read nor rejected as a wrong value: no list of tests, an item that is
no dictionary, and lines that are null, a list or infinite. -/
theorem mistyped_documents_are_no_wrong_values :
    ¬ Roster.Judged [("version", .str "1.0"), ("tests", .int 5)] ∧
    ¬ Roster.Judged [("version", .str "1.0"), ("tests", .list [.int 1])] ∧
    ¬ Roster.Judged [("version", .str "1.0"), ("tests",
      .list [.dict [("name", .str "TestA"), ("file", .str "a_test.go"), ("line", .null)]])] ∧
    ¬ Roster.Judged [("version", .str "1.0"), ("tests",
      .list [.dict [("name", .str "TestA"), ("file", .str "a_test.go"), ("line", .list [])]])] ∧
    ¬ Roster.Judged [("version", .str "1.0"), ("tests",
      .list [.dict [("name", .str "TestA"), ("file", .str "a_test.go"),
        ("line", .float (.infinite false))]])] := by
  refine ⟨?_, ?_, ?_, ?_, ?_⟩ <;>
  · rintro (⟨read, same⟩ | ⟨fault, same, kind⟩)
    · cases same
    · cases same
      exact absurd kind (by decide)

end TestRoster
