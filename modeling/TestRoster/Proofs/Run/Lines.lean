import TestRoster.Proofs.Datum.Json
import TestRoster.Proofs.Text.Portion
import TestRoster.Proofs.Text.Split
import TestRoster.Run.History

/-!
The lines of a history.

Every entry that a run makes is read back from its line, whatever its arguments are, and a file made
of such lines is read as these entries, in their order.
-/
namespace TestRoster

theorem unifyLineEnds_of_not_mem {cs : List Char} (h : '\r' ∉ cs) : unifyLineEnds cs = cs := by
  induction cs with
  | nil => rfl
  | cons c cs ih =>
      obtain ⟨other, later⟩ := List.ne_and_not_mem_of_not_mem_cons h
      rw [unifyLineEnds, if_neg other.symm, ih later]
      rintro rest rfl
      exact absurd rfl other

theorem trim_of_ends {c d : Char} {cs : List Char} (first : isBlank c = false)
    (last : isBlank d = false) : trim (c :: (cs ++ [d])) = c :: (cs ++ [d]) := by
  rw [trim, trimStart, List.dropWhile_cons_of_neg (by simp [first]), trimEnd]
  simp [last]

theorem Datum.arranged_of_unsorted {l : Json.Layout} (unsorted : l.sortFields = false) {d : Datum}
    (plain : d.Plain) : d.arranged l = d := by
  induction plain with
  | null | bool _ | int _ | float _ | str _ => simp [Datum.arranged]
  | @list ds each ih =>
      rw [arranged, arrangedItems_eq_map]
      congr 1
      exact (List.map_congr_left ih).trans (List.map_id' ds)
  | @dict fs once each ih =>
      rw [arranged, arrangedFields_eq_map, Json.Layout.arrange, unsorted]
      have same : (fs.map fun f => (f.1, f.2.arranged l)) = fs.map id :=
        List.map_congr_left fun f member => by rw [ih f member]; rfl
      rw [same, List.map_id]
      rfl

theorem Json.spaced_line : ({} : Json.Layout).Spaced :=
  show (Layout.ofIndent none).Spaced from Layout.spaced_ofIndent (by simp)

namespace HistoryEntry

open Datum

/-- That an entry is what the fields of a dictionary tell. The arguments have to have parts, and
there has to be a directory; the rest may be missing. -/
structure Told (fields : List (String × Datum)) (e : HistoryEntry) : Prop where
  args : (field? fields "args").bind parts? = some e.args
  directory : field? fields "cwd" = some e.directory
  passed : e.passed = ((field? fields "passed").getD (.bool false)).truthy
  timestamp : e.timestamp = (field? fields "timestamp").getD (.str "")

theorem ofDatum_eq_ok_iff {d : Datum} {e : HistoryEntry} :
    ofDatum d = .ok e ↔ ∃ fields, d = .dict fields ∧ e.Told fields := by
  cases d with
  | dict fields =>
      have told : ofDatum (.dict fields) = .ok e ↔ e.Told fields := by
        cases args : (field? fields "args").bind parts? with
        | none =>
            refine iff_of_false ?_ fun told => ?_
            · cases given : field? fields "args" with
              | none => simp [ofDatum, item, given, bind, Except.bind]
              | some a =>
                  rw [given, Option.bind_some] at args
                  simp [ofDatum, item, given, Datum.parts, args, bind, Except.bind]
            · rw [told.args] at args
              cases args
        | some ps =>
            obtain ⟨a, given, parts⟩ := Option.bind_eq_some_iff.mp args
            cases directory : field? fields "cwd" with
            | none =>
                refine iff_of_false ?_ fun told => ?_
                · simp [ofDatum, item, given, Datum.parts, parts, directory, bind, Except.bind]
                · rw [told.directory] at directory
                  cases directory
            | some w =>
                have read : ofDatum (.dict fields) = .ok ⟨ps, w,
                    ((field? fields "passed").getD (.bool false)).truthy,
                    (field? fields "timestamp").getD (.str "")⟩ := by
                  simp [ofDatum, item, itemD, given, Datum.parts, parts, directory, bind,
                    Except.bind,
                    pure, Except.pure]
                rw [read]
                constructor
                · intro same
                  cases same
                  exact ⟨args, directory, rfl, rfl⟩
                · intro told
                  cases e
                  have args' := told.args.symm.trans args
                  have directory' := told.directory.symm.trans directory
                  cases args'
                  cases directory'
                  cases told.passed
                  cases told.timestamp
                  rfl
      simp [told]
  | _ => simp [ofDatum, item, bind, Except.bind]
end HistoryEntry

/-- A command as the history keeps it: its arguments, its directory and whether it passed. -/
structure HistoryRecord where
  args : List String
  directory : String
  passed : Bool
  deriving DecidableEq, Repr

namespace HistoryRecord

variable (r : HistoryRecord) (stamp : String)

def entry : HistoryEntry :=
  ⟨r.args.map .str, .str r.directory, r.passed, .str stamp⟩

theorem plain_entry : (r.entry stamp).toDatum.Plain := by
  refine .dict (by simp) ?_
  simp only [List.forall_mem_cons, List.not_mem_nil, false_implies, implies_true, and_true]
  refine ⟨.list ?_, .str _, .bool _, .str _⟩
  intro d member
  obtain ⟨arg, -, rfl⟩ := List.mem_map.mp member
  exact .str arg

def fields : List (String × Datum) :=
  [("args", .list (r.args.map .str)), ("cwd", .str r.directory), ("passed", .bool r.passed),
    ("timestamp", .str stamp)]

theorem told_fields : (r.entry stamp).Told (r.fields stamp) where
  args := rfl
  directory := rfl
  passed := rfl
  timestamp := rfl

theorem ofJson_line :
    Datum.ofJson (r.entry stamp).line = .ok (r.entry stamp).toDatum := by
  rw [HistoryEntry.line, Datum.ofJson_toJson Json.spaced_line (r.plain_entry stamp),
    Datum.arranged_of_unsorted rfl (r.plain_entry stamp)]

theorem visible_line : ∀ c ∈ (r.entry stamp).line.toList, 0x20 ≤ c.toNat :=
  Json.forall_mem_write (fun _ visible => visible) (by simp [Json.Layout.lineEnd]) (by simp)
    (by simp) (r.plain_entry stamp) 0

theorem line_ends : ∃ cs, (r.entry stamp).line.toList = '\x7b' :: (cs ++ ['\x7d']) :=
  Json.write_dict_ends {} 0 _

theorem trim_line : trim (r.entry stamp).line.toList = (r.entry stamp).line.toList := by
  obtain ⟨cs, ends⟩ := r.line_ends stamp
  rw [ends]
  exact trim_of_ends (by decide) (by decide)

end HistoryRecord

namespace History

def textOf (entries : List HistoryEntry) : List Char :=
  entries.flatMap fun e => e.line.toList ++ ['\n']

def IsRecorded (e : HistoryEntry) : Prop :=
  ∃ (r : HistoryRecord) (stamp : String), e = r.entry stamp

variable {entries : List HistoryEntry}

def Holds (line : List Char) (e : HistoryEntry) : Prop :=
  ∃ fields, Datum.ofJson (String.ofList (trim line)) = .ok (.dict fields) ∧ e.Told fields

theorem Holds.trim_ne_nil {line : List Char} {e : HistoryEntry} (h : Holds line e) :
    trim line ≠ [] := by
  obtain ⟨fields, document, -⟩ := h
  intro none'
  rw [none'] at document
  cases document

theorem entryOf_eq_none_iff {path : String} {number : Nat} {line : List Char} :
    entryOf path number line = .ok none ↔ trim line = [] := by
  rw [entryOf]
  split
  next none' => simp [none']
  next some' =>
    refine iff_of_false (fun read => ?_) some'
    split at read
    next => cases read
    next => cases read
    next d document => cases entry : HistoryEntry.ofDatum d <;> rw [entry] at read <;> cases read

theorem entryOf_eq_some_iff {path : String} {number : Nat} {line : List Char} {e : HistoryEntry} :
    entryOf path number line = .ok (some e) ↔ Holds line e := by
  rw [entryOf]
  split
  next none' => exact iff_of_false (by simp) fun holds => holds.trim_ne_nil none'
  next some' =>
    rw [Holds]
    split
    next document => exact iff_of_false (by simp) (by simp [document])
    next document => exact iff_of_false (by simp) (by simp [document])
    next d document =>
      have told : ((HistoryEntry.ofDatum d).map some).mapError (Failure.history ∘ .badEntry) =
          .ok (some e) ↔ HistoryEntry.ofDatum d = .ok e := by
        cases HistoryEntry.ofDatum d with
        | error fault => exact iff_of_false (fun same => by cases same) (by simp)
        | ok e' => exact ⟨fun same => by cases same; rfl, fun same => by cases same; rfl⟩
      rw [told, HistoryEntry.ofDatum_eq_ok_iff, document]
      simp

/-- Lines are read one after the other, and the first failure ends it. -/
theorem entriesFrom_append (path : String) (number : Nat) (lines more : List (List Char)) :
    entriesFrom path number (lines ++ more) =
      (entriesFrom path number lines).bind fun before =>
        (entriesFrom path (number + lines.length) more).map (before ++ ·) := by
  induction lines generalizing number with
  | nil =>
      change entriesFrom path number more = (entriesFrom path number more).map ([] ++ ·)
      cases entriesFrom path number more <;> rfl
  | cons line lines ih =>
      have place : number + 1 + lines.length = number + (line :: lines).length := by
        rw [List.length_cons]
        omega
      rw [List.cons_append, entriesFrom, entriesFrom, ih, place]
      cases entryOf path number line with
      | error e => rfl
      | ok e =>
          cases entriesFrom path (number + 1) lines with
          | error e => rfl
          | ok before =>
              cases entriesFrom path (number + (line :: lines).length) more with
              | error e => rfl
              | ok after => simp [bind, Except.bind, pure, Except.pure, Except.map]

theorem entriesFrom_append_eq_ok_iff {path : String} {number : Nat}
    {lines more : List (List Char)} :
    entriesFrom path number (lines ++ more) = .ok entries ↔
      ∃ before after, entriesFrom path number lines = .ok before ∧
        entriesFrom path (number + lines.length) more = .ok after ∧ before ++ after = entries := by
  rw [entriesFrom_append]
  cases entriesFrom path number lines with
  | error e => simp [Except.bind]
  | ok before =>
      cases entriesFrom path (number + lines.length) more with
      | error e => simp [Except.bind, Except.map]
      | ok after => simp [Except.bind, Except.map]

theorem entriesFrom_singleton (path : String) (number : Nat) (line : List Char) :
    entriesFrom path number [line] = (entryOf path number line).map Option.toList := by
  rw [entriesFrom, entriesFrom]
  cases entryOf path number line with
  | error e => rfl
  | ok e => simp [bind, Except.bind, pure, Except.pure, Except.map]

theorem holds_line (r : HistoryRecord) (stamp : String) :
    Holds (r.entry stamp).line.toList (r.entry stamp) := by
  refine ⟨_, ?_, r.told_fields stamp⟩
  rw [r.trim_line, String.ofList_toList, r.ofJson_line]
  rfl

theorem no_carriage (recorded : ∀ e ∈ entries, IsRecorded e) : '\r' ∉ textOf entries := by
  intro member
  obtain ⟨e, inside, here⟩ := List.mem_flatMap.mp member
  obtain ⟨r, stamp, rfl⟩ := recorded e inside
  rcases List.mem_append.mp here with line | ending
  · exact absurd (r.visible_line stamp _ line) (by decide)
  · exact absurd (List.mem_singleton.mp ending) (by decide)

theorem textOf_append (entries : List HistoryEntry) (e : HistoryEntry) :
    textOf (entries ++ [e]) = textOf entries ++ (e.line ++ "\n").toList := by
  rw [textOf, textOf, List.flatMap_append, String.toList_append]
  simp

end History

end TestRoster
