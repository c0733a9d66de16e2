import TestRoster.Proofs.Datum.Json
import TestRoster.Proofs.Datum.Traversal
import TestRoster.Roster.Document

/-!
Lists of tests are read back from their documents.

A document is read by looking up fields, so neither the order of the fields nor a field that is not
looked up matters. What is read is written in one form, whatever form it was read from, and this
form is read as the same list again, also from its text in every layout.
-/
namespace TestRoster

/-- A value that equals a text is the text. -/
theorem Datum.same_str_iff {d : Datum} {s : String} : d.same (.str s) = true ↔ d = .str s := by
  cases d <;> simp [Datum.same, Datum.numeral?]

namespace SavedTest

open Datum

/-- That a test is what the fields of a dictionary tell. There have to be a name and a file; the
line and the flag may be missing. -/
structure Told (fields : List (String × Datum)) (t : SavedTest) : Prop where
  name : field? fields "name" = some t.name
  file : field? fields "file" = some t.file
  line : ((field? fields "line").getD (.int 0)).whole = .ok t.line
  benchmark : ((field? fields "benchmark").getD (.bool false)).truthy = t.benchmark

variable {t : SavedTest} {d : Datum} {fields more : List (String × Datum)}

theorem ofDatum_unnamed (missing : field? fields "name" = none) :
    ofDatum (.dict fields) = .error (.missing "name") := by
  simp [ofDatum, item, missing, bind, Except.bind]

theorem ofDatum_unfiled {name : Datum} (named : field? fields "name" = some name)
    (missing : field? fields "file" = none) :
    ofDatum (.dict fields) = .error (.missing "file") := by
  simp [ofDatum, item, named, missing, bind, Except.bind]

/-- With a name and a file the line decides. -/
theorem ofDatum_named {name file : Datum} (named : field? fields "name" = some name)
    (filed : field? fields "file" = some file) :
    ofDatum (.dict fields) = ((field? fields "line").getD (.int 0)).whole.map fun line =>
      ⟨name, file, line, ((field? fields "benchmark").getD (.bool false)).truthy⟩ := by
  simp only [ofDatum, item, itemD, named, filed, bind, Except.bind, pure, Except.pure]
  cases ((field? fields "line").getD (.int 0)).whole <;> rfl

theorem ofDatum_eq_ok_iff : ofDatum d = .ok t ↔ ∃ fields, d = .dict fields ∧ Told fields t := by
  constructor
  · intro read
    cases d with
    | dict fields =>
        refine ⟨fields, rfl, ?_⟩
        cases named : field? fields "name" with
        | none => cases (ofDatum_unnamed named).symm.trans read
        | some name =>
            cases filed : field? fields "file" with
            | none => cases (ofDatum_unfiled named filed).symm.trans read
            | some file =>
                rw [ofDatum_named named filed] at read
                cases line : ((field? fields "line").getD (.int 0)).whole with
                | error fault => rw [line] at read; cases read
                | ok line' => rw [line] at read; cases read; exact ⟨named, filed, line, rfl⟩
    | _ => cases read
  · rintro ⟨fields, rfl, told⟩
    rw [ofDatum_named told.name told.file, told.line, told.benchmark]
    rfl

theorem Told.perm (told : Told fields t) (once : (fields.map Prod.fst).Nodup)
    (perm : more.Perm fields) : Told more t where
  name := (lookup_perm once perm _).trans told.name
  file := (lookup_perm once perm _).trans told.file
  line := by rw [field?, lookup_perm once perm]; exact told.line
  benchmark := by rw [field?, lookup_perm once perm]; exact told.benchmark

theorem ofDatum_toDatum (t : SavedTest) : ofDatum t.toDatum = .ok t :=
  ofDatum_eq_ok_iff.mpr ⟨_, rfl, rfl, rfl, rfl, rfl⟩

/-- A test whose name and file a document can hold, as it is read from a layout. -/
structure Plain (t : SavedTest) : Prop where
  name : t.name.Plain
  file : t.file.Plain
  line : t.line.natAbs < 10 ^ numeralLimit

def arranged (l : Json.Layout) (t : SavedTest) : SavedTest :=
  { t with name := t.name.arranged l, file := t.file.arranged l }

theorem Plain.toDatum (plain : t.Plain) : t.toDatum.Plain := by
  refine .dict (by simp) ?_
  simp only [List.forall_mem_cons, List.not_mem_nil, false_implies, implies_true, and_true]
  exact ⟨plain.name, plain.file, .int plain.line, .bool _⟩

theorem ofDatum_arranged (l : Json.Layout) (t : SavedTest) :
    ofDatum (t.toDatum.arranged l) = .ok (t.arranged l) := by
  have told :
    Told (Datum.arrangedFields l [("name", t.name), ("file", t.file), ("line", .int t.line),
      ("benchmark", .bool t.benchmark)]) (t.arranged l) := by
    simp only [Datum.arrangedFields, Datum.arranged]
    exact ⟨rfl, rfl, rfl, rfl⟩
  refine ofDatum_eq_ok_iff.mpr ⟨_, by rw [toDatum, Datum.arranged], told.perm ?_ (l.arrange_perm _)⟩
  simp [Datum.arrangedFields]

end SavedTest

namespace Roster

open Datum

variable {tests : List SavedTest} {d : Datum} {l : Json.Layout}

def document (tests : List SavedTest) : Datum :=
  .dict [("version", .str documentVersion), ("tests", .list (tests.map SavedTest.toDatum))]

theorem toDatum_tests (tests : List SavedTest) :
    toDatum (tests.map .test) = .ok (document tests) := by
  have items : (tests.map RosterItem.test).mapM RosterItem.toDatum =
      .ok (tests.map SavedTest.toDatum) := by
    rw [mapM_eq_ok_iff, List.forall₂_map_left_iff, List.forall₂_map_right_iff, List.forall₂_same]
    exact fun _ _ => rfl
  rw [toDatum, items]
  rfl

section Head

/-- The head of a document: sound and with its items, or the first thing that is amiss with it. -/
inductive Head (fields : List (String × Datum)) : Prop
  | noVersion (missing : field? fields "version" = none)
  | noTests {version : Datum} (there : field? fields "version" = some version)
      (missing : field? fields "tests" = none)
  | unknownVersion {version listed : Datum} (there : field? fields "version" = some version)
      (held : field? fields "tests" = some listed) (other : version ≠ .str documentVersion)
  | unlisted {listed : Datum} (version : field? fields "version" = some (.str documentVersion))
      (held : field? fields "tests" = some listed) (whole : listed.parts? = none)
  | sound {items : List Datum} (version : field? fields "version" = some (.str documentVersion))
      (there : (field? fields "tests").bind parts? = some items)

theorem head (fields : List (String × Datum)) : Head fields := by
  cases there : field? fields "version" with
  | none => exact .noVersion there
  | some version =>
      cases held : field? fields "tests" with
      | none => exact .noTests there held
      | some listed =>
          by_cases same : version = .str documentVersion
          · subst same
            cases parted : listed.parts? with
            | none => exact .unlisted there held parted
            | some items => exact .sound there (Option.bind_eq_some_iff.mpr ⟨listed, held, parted⟩)
          · exact .unknownVersion there held same

variable {fields : List (String × Datum)} {version listed : Datum}

theorem ofDatum_noVersion (missing : field? fields "version" = none) :
    ofDatum (.dict fields) = .error (.noField "version") := by
  simp [ofDatum, missing]

theorem ofDatum_noTests (there : field? fields "version" = some version)
    (missing : field? fields "tests" = none) :
    ofDatum (.dict fields) = .error (.noField "tests") := by
  simp [ofDatum, there, missing]

theorem ofDatum_unknownVersion (there : field? fields "version" = some version)
    (held : field? fields "tests" = some listed) (other : version ≠ .str documentVersion) :
    ofDatum (.dict fields) = .error (.unknownVersion version.text) := by
  simp [ofDatum, there, held, mt Datum.same_str_iff.mp other]

theorem ofDatum_unlisted (version : field? fields "version" = some (.str documentVersion))
    (held : field? fields "tests" = some listed) (whole : listed.parts? = none) :
    ofDatum (.dict fields) = .error (.misuse (.notIterable listed.typeName)) := by
  simp [ofDatum, version, held, Datum.same, parts, whole, bind, Except.bind, Except.mapError]

/-- Under a sound head the items decide. -/
theorem ofDatum_headed {items : List Datum}
    (version : field? fields "version" = some (.str documentVersion))
    (there : (field? fields "tests").bind parts? = some items) :
    ofDatum (.dict fields) = (items.mapM SavedTest.ofDatum).mapError testFault := by
  obtain ⟨listed, held, parted⟩ := Option.bind_eq_some_iff.mp there
  simp [ofDatum, version, held, Datum.same, parts, parted, bind, Except.bind, Except.mapError]

end Head

/-- A document is read if it has the version and a list, or something with parts, of what is
read. -/
theorem ofDatum_eq_ok_iff :
    ofDatum d = .ok tests ↔ ∃ fields items, d = .dict fields ∧
      field? fields "version" = some (.str documentVersion) ∧
      (field? fields "tests").bind parts? = some items ∧
      List.Forall₂ (fun d t => SavedTest.ofDatum d = .ok t) items tests := by
  constructor
  · intro read
    cases d with
    | dict fields =>
        cases head fields with
        | noVersion missing => cases (ofDatum_noVersion missing).symm.trans read
        | noTests there missing => cases (ofDatum_noTests there missing).symm.trans read
        | unknownVersion there held other =>
            cases (ofDatum_unknownVersion there held other).symm.trans read
        | unlisted version held whole => cases (ofDatum_unlisted version held whole).symm.trans read
        | @sound items version there =>
            rw [ofDatum_headed version there] at read
            refine ⟨fields, items, rfl, version, there, mapM_eq_ok_iff.mp ?_⟩
            cases each : items.mapM SavedTest.ofDatum with
            | error fault => rw [each] at read; cases read
            | ok tests' => rw [each] at read; cases read; rfl
    | _ => cases read
  · rintro ⟨fields, items, rfl, version, there, each⟩
    rw [ofDatum_headed version there, mapM_eq_ok_iff.mpr each]
    rfl

theorem ofDatum_document (tests : List SavedTest) : ofDatum (document tests) = .ok tests := by
  refine ofDatum_eq_ok_iff.mpr ⟨_, _, rfl, rfl, rfl, ?_⟩
  rw [List.forall₂_map_left_iff, List.forall₂_same]
  exact fun t _ => t.ofDatum_toDatum

theorem document_inj {others : List SavedTest} : document others = document tests ↔
    others = tests := by
  refine ⟨fun same => ?_, congrArg document⟩
  have read := ofDatum_document others
  rw [same, ofDatum_document] at read
  exact (Except.ok.inj read).symm

theorem plain_document (each : ∀ t ∈ tests, t.Plain) : (document tests).Plain := by
  refine .dict (by simp) ?_
  simp only [List.forall_mem_cons, List.not_mem_nil, false_implies, implies_true, and_true]
  refine ⟨.str _, .list ?_⟩
  intro d member
  obtain ⟨t, inside, rfl⟩ := List.mem_map.mp member
  exact (each t inside).toDatum

theorem ofDatum_arranged (l : Json.Layout) (tests : List SavedTest) :
    ofDatum ((document tests).arranged l) = .ok (tests.map (SavedTest.arranged l)) := by
  let fields := Datum.arrangedFields l
    [("version", .str documentVersion), ("tests", .list (tests.map SavedTest.toDatum))]
  have once : (fields.map Prod.fst).Nodup := by simp [fields, Datum.arrangedFields]
  have looked : ∀ name, field? (l.arrange fields) name = field? fields name :=
    lookup_perm once (l.arrange_perm fields)
  refine ofDatum_eq_ok_iff.mpr ⟨_, tests.map fun t => t.toDatum.arranged l,
    by rw [document, Datum.arranged], ?version, ?items, ?each⟩
  case version =>
    rw [looked]
    simp only [fields, Datum.arrangedFields, Datum.arranged]
    rfl
  case items =>
    rw [looked]
    simp only [fields, Datum.arrangedFields, Datum.arranged, Datum.arrangedItems_eq_map,
      List.map_map]
    rfl
  case each =>
    rw [List.forall₂_map_left_iff, List.forall₂_map_right_iff, List.forall₂_same]
    exact fun t _ => t.ofDatum_arranged l

/-- The text of a list of tests is read as the list, with what its names and files hold in the order
of the layout. -/
theorem ofJson_toJson (spaced : l.Spaced) (each : ∀ t ∈ tests, t.Plain) :
    ∃ text, toJson (tests.map .test) l = .ok text ∧
      ofJson text = .ok (tests.map (SavedTest.arranged l)) := by
  refine ⟨(document tests).toJson l, ?_, ?_⟩
  · rw [toJson, toDatum_tests]
    rfl
  · rw [ofJson, Datum.ofJson_toJson spaced (plain_document each)]
    exact ofDatum_arranged l tests

end Roster

/-- Tests that were discovered are read back from their document, and, if their lines have not too
many digits, from its text in every layout that puts nothing but blanks between the parts; every
indentation by blanks gives such a layout. A document that is read has a normal form: what was read
from it is written, that is read as the same list, and no other list is written so. -/
theorem saved_tests_are_read_back :
    (∀ tests : List TestCase, ∃ d,
      Roster.toDatum (tests.map fun t => .test t.saved) = .ok d ∧
        Roster.ofDatum d = .ok (tests.map TestCase.saved)) ∧
    (∀ (tests : List TestCase) (l : Json.Layout), l.Spaced →
      (∀ t ∈ tests, t.line.natAbs < 10 ^ numeralLimit) →
      ∃ text, Roster.toJson (tests.map fun t => .test t.saved) l = .ok text ∧
        Roster.ofJson text = .ok (tests.map TestCase.saved)) ∧
    (∀ indent : Option String, (∀ unit ∈ indent, ∀ c ∈ unit.toList, Json.isSpace c = true) →
      (Json.Layout.ofIndent indent).Spaced) ∧
    ∀ d tests, Roster.ofDatum d = .ok tests →
      ∃ d', Roster.toDatum (tests.map .test) = .ok d' ∧ Roster.ofDatum d' = .ok tests ∧
        ∀ others, Roster.toDatum (others.map .test) = .ok d' → others = tests := by
  have written : ∀ tests : List TestCase,
      (tests.map fun t => RosterItem.test t.saved) = (tests.map TestCase.saved).map .test :=
    fun tests => (List.map_map ..).symm
  refine ⟨fun tests => ?value, fun tests l spaced small => ?text,
    fun _ blank => Json.Layout.spaced_ofIndent blank, fun d tests _ => ?normal⟩
  case value =>
    rw [written]
    exact ⟨_, Roster.toDatum_tests _, Roster.ofDatum_document _⟩
  case text =>
    rw [written]
    have each : ∀ t ∈ tests.map TestCase.saved, t.Plain := fun t member => by
      obtain ⟨t, inside, rfl⟩ := List.mem_map.mp member
      exact ⟨.str _, .str _, small t inside⟩
    obtain ⟨text, made, read⟩ := Roster.ofJson_toJson spaced each
    refine ⟨text, made, ?_⟩
    have same : ∀ t : TestCase, t.saved.arranged l = t.saved := fun t => by
      simp [SavedTest.arranged, TestCase.saved, Datum.arranged]
    rw [read, List.map_map]
    exact congrArg _ (List.map_congr_left fun t _ => same t)
  case normal =>
    refine ⟨_, Roster.toDatum_tests tests, Roster.ofDatum_document tests, fun others same => ?_⟩
    rw [Roster.toDatum_tests] at same
    exact Roster.document_inj.mp (Except.ok.inj same)

/-- A test with characters that a document escapes, and one whose line is none of a file. -/
def oddTests : List TestCase :=
  [⟨"TestA/\"\\\n\x00é", "a b_test.go", 3, true⟩, ⟨"", "", -7, false⟩]

/-- A document whose test has a line that is no number yet, no flag, and a field that is not
known. -/
def looseDocument : Datum :=
  .dict [("tests", .list [.dict [("line", .str " +1_2\n"), ("file", .null), ("name", .str "TestA"),
    ("more", .list [])]]), ("version", .str "1.0")]

theorem odd_tests_and_loose_document_are_read_back :
    ((∀ c ∈ "\t ".toList, Json.isSpace c = true) ∧
      (Json.Layout.ofIndent (some "\t ")).Spaced ∧
      (∀ t ∈ oddTests, t.line.natAbs < 10 ^ numeralLimit) ∧
      ∃ text, Roster.toJson (oddTests.map fun t => .test t.saved) (.ofIndent (some "\t ")) =
        .ok text ∧
        Roster.ofJson text = .ok (oddTests.map TestCase.saved)) ∧
    Roster.ofDatum looseDocument = .ok [⟨.str "TestA", .null, 12, false⟩] ∧
      ∃ d, Roster.toDatum [.test ⟨.str "TestA", .null, 12, false⟩] = .ok d ∧
        Roster.ofDatum d = .ok [⟨.str "TestA", .null, 12, false⟩] := by
  obtain ⟨-, texts, indents, normal⟩ := saved_tests_are_read_back
  have blank : ∀ c ∈ "\t ".toList, Json.isSpace c = true := by simp [Json.isSpace]
  have spaced := indents (some "\t ") (by rintro unit ⟨⟩; exact blank)
  have digit : ∀ t ∈ oddTests, t.line.natAbs < 10 := by decide
  have small : ∀ t ∈ oddTests, t.line.natAbs < 10 ^ numeralLimit := fun t member =>
    lt_of_lt_of_le (digit t member) (Nat.le_self_pow (by decide) 10)
  have told : SavedTest.Told [("line", .str " +1_2\n"), ("file", .null), ("name", .str "TestA"),
      ("more", .list [])] ⟨.str "TestA", .null, 12, false⟩ :=
    ⟨rfl, rfl, rfl, rfl⟩
  have read : Roster.ofDatum looseDocument = .ok [⟨.str "TestA", .null, 12, false⟩] :=
    Roster.ofDatum_eq_ok_iff.mpr ⟨_, _, rfl, rfl, rfl,
      .cons (SavedTest.ofDatum_eq_ok_iff.mpr ⟨_, rfl, told⟩) .nil⟩
  obtain ⟨d, written, again, -⟩ := normal looseDocument _ read
  exact ⟨⟨blank, spaced, small, texts oddTests _ spaced small⟩, read, d, written, again⟩

end TestRoster
