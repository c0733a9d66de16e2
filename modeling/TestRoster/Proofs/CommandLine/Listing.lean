import TestRoster.Proofs.CommandLine.Commands
import TestRoster.Proofs.Run.Appended

/-!
Histories of any bytes.

A history is read up to the first line that stops it. A line that is no document, or one that tells
no entry, is reported as a fault of the history. Bytes that are no text and numerals with too many
digits are not, and what an entry holds may be of any type until it is shown.
-/
namespace TestRoster

variable {path : String} {number : Nat} {line : List Char} {lines : List (List Char)} {f : Failure}

theorem Datum.exists_textsFrom_iff {ds : List Datum} (index : Nat) :
    (∃ texts, textsFrom index ds = .ok texts) ↔ ∀ d ∈ ds, ∃ text, d = .str text := by
  induction ds generalizing index with
  | nil => simp [textsFrom]
  | cons d ds ih =>
      cases d with
      | str text =>
          have step : (∃ texts, textsFrom index (.str text :: ds) = .ok texts) ↔
              ∃ texts, textsFrom (index + 1) ds = .ok texts := by
            rw [textsFrom]
            cases textsFrom (index + 1) ds <;> simp [bind, Except.bind, pure, Except.pure]
          simp [step, ih (index + 1)]
      | _ => simp [textsFrom]

/-- An entry is shown exactly if its arguments are texts. -/
theorem HistoryEntry.exists_text_iff {e : HistoryEntry} :
    (∃ text, e.text = .ok text) ↔ ∀ d ∈ e.args, ∃ text, d = .str text := by
  rw [← Datum.exists_textsFrom_iff 0, text, Datum.joinTexts]
  cases Datum.textsFrom 0 e.args <;> simp [bind, Except.bind, pure, Except.pure]

namespace Act

variable {γ : Type} {s s' : Session}

/-- A loop whose items end well in any session or in none ends well exactly if each item does. -/
theorem forM_run_iff {f : γ → Act Unit} {P : γ → Prop} {xs : List γ}
    (each : ∀ x s, (∃ s', (f x).run s = (.ok (), s')) ↔ P x) :
    (∃ s', (xs.forM f).run s = (.ok (), s')) ↔ ∀ x ∈ xs, P x := by
  induction xs generalizing s with
  | nil => exact iff_of_true ⟨s, rfl⟩ (List.forall_mem_nil _)
  | cons x xs ih =>
      have unrolled : (x :: xs).forM f = (f x >>= fun _ => xs.forM f) := rfl
      rw [List.forall_mem_cons, ← each x s, unrolled]
      cases first : (f x).run s with
      | mk result s₁ =>
          cases result with
          | error e =>
              rw [run_bind_error first]
              simp
          | ok u =>
              rw [run_bind_ok first, ih]
              simp

/-- The line of a listing for an entry with its number. -/
def showEntry (e : HistoryEntry × Nat) : Act Unit := do
  echo (numberLabel e.2 ++ "  " ++ (← lift .misuse e.1.text))

theorem showEntry_run_iff (e : HistoryEntry × Nat) (s : Session) :
    (∃ s', (showEntry e).run s = (.ok (), s')) ↔ ∃ text, e.1.text = .ok text := by
  have lifted := run_lift Failure.misuse e.1.text s
  rw [showEntry]
  cases shows : e.1.text with
  | error fault =>
      rw [shows] at lifted
      rw [run_bind_error lifted]
      simp
  | ok text =>
      rw [shows] at lifted
      obtain ⟨s', said, -⟩ := echo_run (numberLabel e.2 ++ "  " ++ text) s
      exact iff_of_true ⟨s', (run_bind_ok lifted).trans said⟩ ⟨text, rfl⟩

def lastPage (entries : List HistoryEntry) : List HistoryEntry :=
  entries.drop (entries.length - historyPage)

/-- A history that is loaded is listed exactly if each entry on its last page can be shown. -/
theorem browseHistory_run_iff {settings : Settings} {entries : List HistoryEntry}
    (loaded : (loadEntries settings.historyFile).run s = (.ok entries, s)) :
    (∃ s', (browseHistory settings true).run s = (.ok true, s')) ↔
      ∀ e ∈ lastPage entries, ∃ text, e.text = .ok text := by
  have listed : (browseHistory settings true).run s =
      (if (lastPage entries).isEmpty then do
          echo "No commands in history"
          return true
        else do
          ((lastPage entries).zipIdx 1).forM showEntry
          return true : Act Bool).run s := run_bind_ok loaded
  have numbered : (∀ e ∈ lastPage entries, ∃ text, e.text = .ok text) ↔
      ∀ x ∈ (lastPage entries).zipIdx 1, ∃ text, x.1.text = .ok text := by
    have each := List.forall_mem_map (f := Prod.fst) (l := (lastPage entries).zipIdx 1)
      (P := fun e => ∃ text, HistoryEntry.text e = .ok text)
    rwa [List.zipIdx_map_fst] at each
  rw [listed, numbered, ← forM_run_iff (s := s) showEntry_run_iff]
  by_cases empty : (lastPage entries).isEmpty
  · rw [if_pos empty, List.isEmpty_iff.mp empty]
    exact iff_of_true ⟨_, rfl⟩ ⟨_, rfl⟩
  · rw [if_neg empty]
    cases all : (((lastPage entries).zipIdx 1).forM showEntry).run s with
    | mk result s₁ =>
        cases result with
        | error failure =>
            rw [run_bind_error all]
            simp
        | ok u => exact iff_of_true ⟨_, run_bind_ok all⟩ ⟨_, rfl⟩

end Act

namespace History

/-- That a line is blank, or holds an entry with some property. -/
def Fits (P : HistoryEntry → Prop) (line : List Char) : Prop :=
  trim line = [] ∨ ∃ e, Holds line e ∧ P e

def Readable (line : List Char) : Prop :=
  Fits (fun _ => True) line

/-- That a line is no document, or one that tells no entry. -/
def Rejected (line : List Char) : Prop :=
  trim line ≠ [] ∧
    ((∃ cause l c p,
        Datum.ofJson (String.ofList (trim line)) = .error (.malformed cause l c p)) ∨
      ∃ d, Datum.ofJson (String.ofList (trim line)) = .ok d ∧
        ∀ fields e, d = .dict fields → ¬ HistoryEntry.Told fields e)

/-- That reading a line ends at a numeral with too many digits. -/
def Overlong (digits : Nat) (line : List Char) : Prop :=
  Datum.ofJson (String.ofList (trim line)) = .error (.numeralTooLong digits)

/-- That all lines are read up to one with some property. -/
def StopsAt (P : List Char → Prop) (lines : List (List Char)) : Prop :=
  ∃ before line after, lines = before ++ line :: after ∧ (∀ l ∈ before, Readable l) ∧ P line

theorem stopsAt_cons {P : List Char → Prop} :
    StopsAt P (line :: lines) ↔ P line ∨ Readable line ∧ StopsAt P lines := by
  constructor
  · rintro ⟨before, l, after, split, readable, holds⟩
    cases before with
    | nil =>
        cases split
        exact .inl holds
    | cons first before =>
        cases split
        obtain ⟨here, later⟩ := List.forall_mem_cons.mp readable
        exact .inr ⟨here, before, l, after, rfl, later, holds⟩
  · rintro (holds | ⟨here, before, l, after, rfl, later, holds⟩)
    · exact ⟨[], line, lines, rfl, by simp, holds⟩
    · exact ⟨line :: before, l, after, rfl, List.forall_mem_cons.mpr ⟨here, later⟩, holds⟩

theorem exists_entryOf_iff (path : String) (number : Nat) {P : HistoryEntry → Prop} :
    (∃ o, entryOf path number line = .ok o ∧ ∀ e ∈ o.toList, P e) ↔ Fits P line := by
  constructor
  · rintro ⟨o, read, each⟩
    cases o with
    | none => exact .inl (entryOf_eq_none_iff.mp read)
    | some e => exact .inr ⟨e, entryOf_eq_some_iff.mp read, each e (List.mem_singleton_self e)⟩
  · rintro (blank | ⟨e, holds, fits⟩)
    · exact ⟨none, entryOf_eq_none_iff.mpr blank, by simp⟩
    · exact ⟨some e, entryOf_eq_some_iff.mpr holds, by simpa using fits⟩

theorem readable_iff (path : String) (number : Nat) :
    Readable line ↔ ∃ o, entryOf path number line = .ok o := by
  rw [Readable, ← exists_entryOf_iff path number]
  simp

/-- A line that is not read is rejected, or has a numeral with too many digits. -/
theorem entryOf_eq_error_cases (fails : entryOf path number line = .error f) :
    (Rejected line ∧ ∃ fault, f = .history fault) ∨
      ∃ digits, Overlong digits line ∧ f = .json (.numeralTooLong digits) := by
  rw [entryOf] at fails
  split at fails
  next => cases fails
  next some' =>
    split at fails
    next cause l c p document =>
      cases fails
      exact .inl ⟨⟨some', .inl ⟨cause, l, c, p, document⟩⟩, _, rfl⟩
    next fault other document =>
      cases fails
      cases fault with
      | malformed cause l c p => exact absurd rfl (other cause l c p)
      | numeralTooLong digits => exact .inr ⟨digits, document, rfl⟩
    next d document =>
      cases entry : HistoryEntry.ofDatum d with
      | ok e =>
          rw [entry] at fails
          cases fails
      | error fault =>
          rw [entry] at fails
          cases fails
          refine .inl ⟨⟨some', .inr ⟨d, document, fun fields e same told => ?_⟩⟩, _, rfl⟩
          rw [HistoryEntry.ofDatum_eq_ok_iff.mpr ⟨fields, same, told⟩] at entry
          cases entry

theorem Rejected.not_readable (rejected : Rejected line) : ¬ Readable line := by
  obtain ⟨some', ⟨cause, l, c, p, malformed⟩ | ⟨d, document, untold⟩⟩ := rejected
  · rintro (blank | ⟨e, ⟨fields, document, -⟩, -⟩)
    · exact some' blank
    · rw [malformed] at document
      cases document
  · rintro (blank | ⟨e, ⟨fields, document', told⟩, -⟩)
    · exact some' blank
    · rw [document] at document'
      exact untold fields e (Except.ok.inj document') told

theorem Rejected.not_overlong {digits : Nat} (rejected : Rejected line) :
    ¬ Overlong digits line := by
  intro overlong
  rw [Overlong] at overlong
  obtain ⟨-, ⟨cause, l, c, p, malformed⟩ | ⟨d, document, -⟩⟩ := rejected
  · rw [malformed] at overlong
    cases overlong
  · rw [document] at overlong
    cases overlong

theorem exists_entryOf_history_iff :
    (∃ fault, entryOf path number line = .error (.history fault)) ↔ Rejected line := by
  constructor
  · rintro ⟨fault, fails⟩
    rcases entryOf_eq_error_cases fails with ⟨rejected, -⟩ | ⟨digits, -, other⟩
    · exact rejected
    · cases other
  · intro rejected
    cases read : entryOf path number line with
    | ok o => exact absurd ((readable_iff _ _).mpr ⟨o, read⟩) rejected.not_readable
    | error f =>
        rcases entryOf_eq_error_cases read with ⟨-, fault, rfl⟩ | ⟨digits, overlong, -⟩
        · exact ⟨fault, rfl⟩
        · exact absurd overlong rejected.not_overlong

theorem Overlong.not_readable {digits : Nat} (overlong : Overlong digits line) :
    ¬ Readable line := by
  rw [Overlong] at overlong
  rintro (blank | ⟨e, ⟨fields, document, -⟩, -⟩)
  · rw [blank] at overlong
    cases overlong
  · rw [document] at overlong
    cases overlong

theorem entryOf_eq_error_iff_overlong (other : ∀ fault, f ≠ .history fault) :
    entryOf path number line = .error f ↔
      ∃ digits, Overlong digits line ∧ f = .json (.numeralTooLong digits) := by
  constructor
  · intro fails
    rcases entryOf_eq_error_cases fails with ⟨-, fault, rfl⟩ | numeral
    · exact absurd rfl (other fault)
    · exact numeral
  · rintro ⟨digits, overlong, rfl⟩
    cases read : entryOf path number line with
    | ok o => exact absurd ((readable_iff _ _).mpr ⟨o, read⟩) overlong.not_readable
    | error g =>
        rcases entryOf_eq_error_cases read with ⟨rejected, -⟩ | ⟨digits', overlong', rfl⟩
        · exact absurd overlong rejected.not_overlong
        · rw [Overlong] at overlong overlong'
          rw [overlong] at overlong'
          cases overlong'
          rfl

/-- The lines are all read exactly if each of them is. -/
theorem exists_entriesFrom_iff (path : String) (number : Nat) {P : HistoryEntry → Prop} :
    (∃ entries, entriesFrom path number lines = .ok entries ∧ ∀ e ∈ entries, P e) ↔
      ∀ line ∈ lines, Fits P line := by
  induction lines generalizing number with
  | nil => simp [entriesFrom]
  | cons line lines ih =>
      rw [List.forall_mem_cons, ← ih (number + 1), ← exists_entryOf_iff path number, entriesFrom]
      cases entryOf path number line with
      | error f => simp [bind, Except.bind]
      | ok o =>
          cases entriesFrom path (number + 1) lines with
          | error f => simp [bind, Except.bind]
          | ok entries =>
              simp [bind, Except.bind, pure, Except.pure, or_imp, forall_and]

/-- A failure of some kind comes from the first line that is not read. -/
theorem exists_entriesFrom_error_iff (path : String) {ι : Type} {kind : ι → Failure}
    {P : List Char → Prop} (number : Nat)
    (each : ∀ number line, (∃ i, entryOf path number line = .error (kind i)) ↔ P line) :
    (∃ i, entriesFrom path number lines = .error (kind i)) ↔ StopsAt P lines := by
  induction lines generalizing number with
  | nil => simp [entriesFrom, StopsAt]
  | cons line lines ih =>
      rw [stopsAt_cons, ← ih (number + 1), ← each number line, readable_iff path number,
        entriesFrom]
      cases entryOf path number line with
      | error f => simp [bind, Except.bind]
      | ok o =>
          cases entriesFrom path (number + 1) lines <;>
            simp [bind, Except.bind, pure, Except.pure]

variable {read : List (List Char) × Option Utf8.DecodeFault}

theorem exists_ofLines_ok_iff {P : HistoryEntry → Prop} :
    (∃ entries, ofLines path read = .ok entries ∧ ∀ e ∈ entries, P e) ↔
      read.2 = none ∧ ∀ line ∈ read.1, Fits P line := by
  rw [← exists_entriesFrom_iff path 1]
  simp only [ofLines_eq_ok_iff]
  exact ⟨fun ⟨entries, ⟨loaded, unflawed⟩, each⟩ => ⟨unflawed, entries, loaded, each⟩,
    fun ⟨unflawed, entries, loaded, each⟩ => ⟨entries, ⟨loaded, unflawed⟩, each⟩⟩

/-- What stops a file is a line of it, or the flaw behind all its lines. -/
theorem ofLines_eq_error_iff :
    ofLines path read = .error f ↔ entriesFrom path 1 read.1 = .error f ∨
      (∀ line ∈ read.1, Readable line) ∧ ∃ fault, read.2 = some fault ∧ f = .notText fault := by
  have all : (∀ line ∈ read.1, Readable line) ↔
      ∃ entries, entriesFrom path 1 read.1 = .ok entries := by
    have whole : (∃ entries, entriesFrom path 1 read.1 = .ok entries ∧ ∀ e ∈ entries, True) ↔ _ :=
      exists_entriesFrom_iff path 1
    simpa [Readable] using whole.symm
  rw [all, ofLines]
  cases entriesFrom path 1 read.1 with
  | error g => simp
  | ok entries => cases read.2 <;> simp [eq_comm]

theorem exists_ofLines_history_iff :
    (∃ fault, ofLines path read = .error (.history fault)) ↔ StopsAt Rejected read.1 := by
  rw [← exists_entriesFrom_error_iff path 1 fun _ _ => exists_entryOf_history_iff]
  simp [ofLines_eq_error_iff]

/-- A failure that is no fault of the history comes from a numeral or from the bytes. -/
theorem ofLines_other_error (fails : ofLines path read = .error f)
    (other : ∀ fault, f ≠ .history fault) :
    (∃ digits, f = .json (.numeralTooLong digits) ∧ StopsAt (Overlong digits) read.1) ∨
      ∃ fault, f = .notText fault ∧ read.2 = some fault ∧ ∀ line ∈ read.1, Readable line := by
  rcases ofLines_eq_error_iff.mp fails with stopped | ⟨all, fault, flawed, rfl⟩
  · have each : ∀ number line, (∃ _ : Unit, entryOf path number line = .error f) ↔
        ∃ digits, Overlong digits line ∧ f = .json (.numeralTooLong digits) := fun number line => by
      rw [exists_const]
      exact entryOf_eq_error_iff_overlong other
    have first := (exists_entriesFrom_error_iff path 1 each).mp ⟨(), stopped⟩
    obtain ⟨before, line, after, split, readable, digits, overlong, rfl⟩ := first
    exact .inl ⟨digits, rfl, before, line, after, split, readable, overlong⟩
  · exact .inr ⟨fault, rfl, flawed, all⟩

end History

/-- That each escape of a first half of a surrogate pair is followed by one of a second half, and
that these stand nowhere else. What is read of other lines is told here with a replacement character
for each half, which cannot be shown as it is. -/
def Json.pairsSurrogates (afterFirst : Bool) : List Char → Bool
  | [] => !afterFirst
  | '\\' :: 'u' :: a :: b :: c :: d :: rest =>
      match fourHex? [a, b, c, d] with
      | none => !afterFirst && pairsSurrogates false rest
      | some (n, _) =>
          if isLowSurrogate n then afterFirst && pairsSurrogates false rest
          else !afterFirst && pairsSurrogates (isHighSurrogate n) rest
  | '\\' :: _ :: rest | _ :: rest => !afterFirst && pairsSurrogates false rest

open FileSystem History

variable {p : Path} {s : Session} {bytes : List UInt8}

/-- A history is reported as corrupt exactly if the first line that is not read is rejected. It is
loaded exactly if its bytes are a text whose lines are all read, and its entries have the types of
those of a run exactly if all its lines fit. Such entries are listed, unless a line spells half of a
surrogate pair. Every other failure is due to a numeral with too many digits or to bytes that are no
text. -/
theorem corrupt_history_is_reported_at_rejected_line (is_open : s.files.Open p)
    (file : s.files.occupant? (s.files.place p) = some (.file bytes)) :
    ∃ result, (Act.loadEntries p).run s = (result, s) ∧
      ((∃ fault, result = .error (.history fault)) ↔ StopsAt Rejected (linesOf bytes).1) ∧
      ((∃ entries, result = .ok entries) ↔
        (linesOf bytes).2 = none ∧ ∀ line ∈ (linesOf bytes).1, Readable line) ∧
      ((∃ entries, result = .ok entries ∧ ∀ e ∈ entries, IsRecorded e) ↔
        (linesOf bytes).2 = none ∧ ∀ line ∈ (linesOf bytes).1, Fits IsRecorded line) ∧
      (∀ f, result = .error f → (∀ fault, f ≠ .history fault) →
        (∃ digits, f = .json (.numeralTooLong digits) ∧
            StopsAt (Overlong digits) (linesOf bytes).1) ∨
          ∃ fault, f = .notText fault ∧ (linesOf bytes).2 = some fault ∧
            ∀ line ∈ (linesOf bytes).1, Readable line) ∧
      ∀ entries, result = .ok entries → (∀ e ∈ entries, IsRecorded e) →
        (∀ line ∈ (linesOf bytes).1, Json.pairsSurrogates false line = true) →
        ∀ settings : Settings, settings.historyFile = p →
          ∃ s', (Act.browseHistory settings true).run s = (.ok true, s') := by
  have loads := Act.loadEntries_run_of_file is_open file
  refine ⟨_, loads, exists_ofLines_history_iff, ?_, exists_ofLines_ok_iff,
    fun f fails other => ofLines_other_error fails other, ?_⟩
  · have whole : (∃ entries, History.ofLines p.toString (linesOf bytes) = .ok entries ∧
        ∀ e ∈ entries, True) ↔ _ := exists_ofLines_ok_iff
    simpa [Readable] using whole
  · rintro entries loaded recorded - settings rfl
    rw [loaded] at loads
    refine (Act.browseHistory_run_iff loads).mpr fun e member => HistoryEntry.exists_text_iff.mpr ?_
    obtain ⟨r, stamp, rfl⟩ := recorded e (List.mem_of_mem_drop member)
    intro d inside
    obtain ⟨arg, -, rfl⟩ := List.mem_map.mp inside
    exact ⟨arg, rfl⟩

theorem rejected_second_line_is_reported :
    let settings : Settings := ⟨false, Path.ofString "h", Path.ofString "b"⟩
    let whole := historySession (Utf8.encode foreignLine.toList)
    let corrupt := historySession (Utf8.encode (foreignLine ++ "\n\x7b").toList)
    (∃ s', (Act.browseHistory settings true).run whole = (.ok true, s')) ∧
      ∃ fault, (Act.loadEntries (Path.ofString "h")).run corrupt =
        (.error (.history fault), corrupt) := by
  intro settings whole corrupt
  have recorded : IsRecorded ⟨[.str "go"], .str "/src", false, .str ""⟩ :=
    ⟨⟨["go"], "/src", false⟩, "", rfl⟩
  constructor
  · have lines : linesOf (Utf8.encode foreignLine.toList) = ([foreignLine.toList], none) :=
      linesOf_eq_iff.mpr ⟨_, Utf8.decode?_encode _, by decide +kernel⟩
    obtain ⟨result, loads, -, -, formed, -, listed⟩ := corrupt_history_is_reported_at_rejected_line
      (historySession_open _) (historySession_file (Utf8.encode foreignLine.toList))
    obtain ⟨entries, rfl, each⟩ := formed.mpr (by
      rw [lines]
      exact ⟨rfl, List.forall_mem_singleton.mpr (.inr ⟨_, holds_foreignLine, recorded⟩)⟩)
    refine listed entries rfl each (fun line member => ?_) settings rfl
    rw [lines, List.mem_singleton] at member
    rw [member]
    decide
  · have lines : linesOf (Utf8.encode (foreignLine ++ "\n\x7b").toList) =
        ([foreignLine.toList, ['\x7b']], none) :=
      linesOf_eq_iff.mpr ⟨_, Utf8.decode?_encode _, by decide +kernel⟩
    obtain ⟨result, loads, refused, -⟩ := corrupt_history_is_reported_at_rejected_line
      (historySession_open _) (historySession_file (Utf8.encode (foreignLine ++ "\n\x7b").toList))
    have fails : (match Datum.ofJson (String.ofList (trim ['\x7b'])) with
        | .ok _ => none
        | .error fault => some fault) = some (.malformed .name 1 2 1) := by
      decide +kernel
    have rejected : Rejected ['\x7b'] := by
      refine ⟨by decide, .inl ⟨.name, 1, 2, 1, ?_⟩⟩
      split at fails
      next => cases fails
      next fault document => rw [document, Option.some.inj fails]
    obtain ⟨fault, rfl⟩ := refused.mpr (by
      rw [lines]
      exact ⟨[foreignLine.toList], _, [], rfl,
        List.forall_mem_singleton.mpr (.inr ⟨_, holds_foreignLine, trivial⟩), rejected⟩)
    exact ⟨fault, loads⟩

/-- Bytes that are no text, and entries with a number among the arguments or as the directory, are
not reported. -/
theorem undecodable_and_mistyped_histories_are_not_reported :
    let p := Path.ofString "h"
    let settings : Settings := ⟨false, p, Path.ofString "b"⟩
    let flawed := historySession [0xff]
    let numbered := historySession (Utf8.encode "\x7b\"args\": [1], \"cwd\": \"/src\"\x7d\n".toList)
    let placeless := historySession (Utf8.encode "\x7b\"args\": [\"a\"], \"cwd\": 5\x7d\n".toList)
    (match ((Act.loadEntries p).run flawed).1 with
      | .ok _ => none
      | .error f => some f.label) = some "UnicodeDecodeError" ∧
    ((Act.loadEntries p).run numbered).1.toOption.map List.length = some 1 ∧
    (match ((Act.browseHistory settings true).run numbered).1 with
      | .ok _ => none
      | .error f => some f.raised) =
        some ⟨"TypeError", "sequence item 0: expected str instance, int found"⟩ ∧
    ((Act.loadEntries p).run placeless).1.toOption.map (List.map (·.directory.typeName)) =
      some ["int"] := by
  decide +kernel

end TestRoster
