import TestRoster.Proofs.Datum.Traversal
import TestRoster.Proofs.Run.Kept
import TestRoster.Proofs.Run.Lines
import TestRoster.Proofs.Text.Utf8

/-!
The history as a file.

While the history can be written, an entry that is appended stands after the entries before it, and
all of them are read back. The latest entry is run again in its directory, with its arguments.
-/
namespace TestRoster

open FileSystem

/-- The file at a path holds some entries of runs, and can be written. -/
structure Logged (p : Path) (entries : List HistoryEntry) (fs : FileSystem) : Prop where
  ready : fs.Ready p
  recorded : ∀ e ∈ entries, History.IsRecorded e
  held : entries = [] ∧ fs.occupant? (fs.place p) = none ∨
    fs.Open p ∧ fs.occupant? (fs.place p) = some (.file (Utf8.encode (History.textOf entries)))

variable {p : Path} {entries : List HistoryEntry} {fs fs' : FileSystem} {s s' : Session}

theorem Logged.spares (h : Logged p entries fs) (spared : Spares p fs fs') :
    Logged p entries fs' where
  ready := spared.ready h.ready
  recorded := h.recorded
  held := by
    rw [place_of_start spared.start, spared.here]
    exact h.held.imp_right fun ⟨is_open, file⟩ => ⟨is_open.congr_spares spared, file⟩

theorem logged_nil (ready : fs.Ready p) (absent : fs.occupant? (fs.place p) = none) :
    Logged p [] fs :=
  ⟨ready, by simp, .inl ⟨rfl, absent⟩⟩

namespace Act

/-- An entry is written behind whatever the file holds. -/
theorem appendEntry_run_of_ready (ready : s.files.Ready p) (e : HistoryEntry) :
    ∃ s', (appendEntry p e).run s = (.ok (), s') ∧ Idle s s' ∧ s'.files.Ready p ∧
      s'.files.Open p ∧ ∃ old : Option (List UInt8),
        s.files.occupant? (s.files.place p) = old.map .file ∧
        s'.files.occupant? (s'.files.place p) =
          some (.file (old.getD [] ++ Utf8.encode (e.line ++ "\n").toList)) := by
  obtain ⟨made, written, done, done', ready', is_open, -, old, held, file⟩ :=
    ready.written (· ++ Utf8.encode (e.line ++ "\n").toList)
  refine ⟨{ s with files := written }, ?_, ⟨⟨by simp, by simp, by simp, rfl, rfl, rfl, rfl⟩, rfl⟩,
    ready',
    is_open, old, held, file⟩
  rw [appendEntry, run_bind, changeFiles_run]
  simp only [done, changeFiles_run]
  rw [FileSystem.append, done']

theorem appendEntry_run (logged : Logged p entries s.files) (r : HistoryRecord) (stamp : String) :
    ∃ s', (appendEntry p (r.entry stamp)).run s = (.ok (), s') ∧ Idle s s' ∧
      Logged p (entries ++ [r.entry stamp]) s'.files := by
  obtain ⟨s', runs, idle, ready, is_open, old, held, file⟩ :=
    appendEntry_run_of_ready logged.ready (r.entry stamp)
  refine ⟨s', runs, idle, ready, ?_, .inr ⟨is_open, ?_⟩⟩
  · intro e member
    rcases List.mem_append.mp member with old | new
    · exact logged.recorded e old
    · exact ⟨r, stamp, List.mem_singleton.mp new⟩
  · have before : old.getD [] = Utf8.encode (History.textOf entries) := by
      rcases logged.held with ⟨rfl, absent⟩ | ⟨-, there⟩
      · rw [absent] at held
        cases old with
        | none => rfl
        | some bytes => cases held
      · rw [there] at held
        cases old with
        | none => cases held
        | some bytes => cases held; rfl
    rw [file, before, History.textOf_append, Utf8.encode_append]

theorem loadEntries_run_of_file {bytes : List UInt8} (is_open : s.files.Open p)
    (file : s.files.occupant? (s.files.place p) = some (.file bytes)) :
    (loadEntries p).run s = (History.ofLines p.toString (linesOf bytes), s) := by
  have read : s.files.read p p.toString = .ok bytes := read_eq_ok_iff.mpr ⟨is_open, file⟩
  have lines : (readLines p).run s = (.ok (linesOf bytes), s) := by
    rw [readLines, run_bind_ok (run_get s), read]
    rfl
  rw [loadEntries, run_bind_ok (run_get s), if_pos (exists'_iff.mpr ⟨is_open, _, file⟩),
    run_bind_ok lines, run_lift]
  cases History.ofLines p.toString (linesOf bytes) <;> rfl

theorem historyEntry_run (c : Command) (passed : Bool) (s : Session) :
    ∃ s', (historyEntry c passed).run s =
        (.ok ((⟨c.args, (s.files.resolve (Path.ofString c.directory)).toString, passed⟩ :
          HistoryRecord).entry s.clock.stamp), s') ∧
      Progress [] s s' ∧ s'.files = s.files :=
  ⟨_, rfl, ⟨by simp, by simp, by simp, rfl, rfl, rfl, rfl⟩, rfl⟩

theorem quiet_loadEntries (p : Path) : Quiet (loadEntries p) := by
  refine keeps_get.bind fun s => ?_
  split
  · exact (quiet_readLines p).bind fun _ => keeps_lift _ _
  · exact keeps_pure _

theorem quiet_lastEntry (p : Path) : Quiet (lastEntry p) := by
  refine (quiet_loadEntries p).bind fun entries => ?_
  cases entries.getLast? with
  | none => exact keeps_throw _
  | some e => exact keeps_pure e

theorem writes_repeatCommand {ps : List Path} (c : Command) (colour : Bool) :
    Keeps (Writes ps) (repeatCommand c colour) := by
  rw [repeatCommand]
  split
  · exact writes_executeAttached c
  · exact writes_execute c colour

/-- How an entry tells that its command was not started. -/
def retell (e : HistoryEntry) : Failure → Act Outcome
  | .notStarted (.subprocess reason) => do
      throw (.history (.notRerun (← lift .misuse e.text) reason))
  | failure => throw failure

theorem quiet_retell (e : HistoryEntry) (failure : Failure) : Quiet (retell e failure) := by
  unfold retell
  split
  · exact (keeps_lift _ _).bind fun _ => keeps_throw _
  · exact keeps_throw _

theorem writes_rerun {ps : List Path} (e : HistoryEntry) (colour : Bool) :
    Keeps (Writes ps) (rerun e colour) := by
  have later : Keeps (Writes ps) (do
      let c ← lift .misuse e.command
      tryCatch (repeatCommand c colour) (retell e)) :=
    (keeps_lift _ _).bind fun c => (writes_repeatCommand c colour).tryCatch fun failure =>
      (quiet_retell e failure).writes
  unfold rerun
  split
  · refine keeps_get.bind fun s => ?_
    split
    · exact (keeps_throw _).bind fun _ => later
    · exact later
  · exact (keeps_throw _).bind fun _ => later

end Act

end TestRoster
