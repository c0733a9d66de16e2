import TestRoster.Proofs.Benchmark.Store
import TestRoster.Proofs.Run.Recorded

/-!
The store of benchmark runs as a file.

While the store and the draft beside it can be written, recording a run reads the store, changes it
at one key and time, and moves the new one into its place.
-/
namespace TestRoster

open FileSystem BenchmarkStore

/-- The file at a path holds a store, and can be written. -/
structure Stored (p : Path) (store : Datum) (fs : FileSystem) : Prop where
  ready : fs.Ready p
  draft : fs.Ready (draft p)
  sound : IsStore store
  held : store = empty ∧ fs.occupant? (fs.place p) = none ∨
    fs.Open p ∧ fs.occupant? (fs.place p) = some (.file (Utf8.encode (store.toJson layout).toList))

variable {p : Path} {store : Datum} {fs fs' : FileSystem} {s : Session}

theorem Stored.spares (h : Stored p store fs) (spared : Spares p fs fs')
    (spared' : Spares (BenchmarkStore.draft p) fs fs') : Stored p store fs' where
  ready := spared.ready h.ready
  draft := spared'.ready h.draft
  sound := h.sound
  held := by
    rw [place_of_start spared.start, spared.here]
    exact h.held.imp_right fun ⟨is_open, file⟩ => ⟨is_open.congr_spares spared, file⟩

/-- The draft stands beside the store. -/
theorem draft_parent (p : Path) : (draft p).parent = p.parent := by
  simp [draft, Path.parent, Path.child]

theorem draft_apart (ready : fs.Ready p) (ready' : fs.Ready (draft p)) :
    fs.place (draft p) ≠ fs.place p := by
  obtain ⟨name, child, down⟩ := ready.named
  obtain ⟨name', child', down'⟩ := ready'.named
  have named : p.name = name := by
    rw [child]
    simp [Path.name, Path.child]
  have named' : name' = name ++ ".tmp" := by
    rw [draft_parent] at child'
    have names := congrArg Path.name child'
    simpa [draft, Path.name, Path.child, ← named] using names.symm
  have place := place_child fs p.parent name
  have place' := place_child fs p.parent name'
  rw [← child, step, if_neg down] at place
  rw [draft_parent] at child'
  rw [← child', step, if_neg down', named'] at place'
  rw [place, place']
  intro same
  have lengths := congrArg String.length (List.append_cancel_left same |> List.head_eq_of_cons_eq)
  simp at lengths

/-- Two stores hold the same outputs. -/
structure SameRuns (store store' : Datum) : Prop where
  keys : ∀ key, (runs? store' key).isSome = (runs? store key).isSome
  outputs : ∀ key stamp, output? store' key stamp = output? store key stamp

def FileSystem.text (fs : FileSystem) (p : Path) : Except Failure String := do
  let bytes ← (fs.read p p.toString).mapError .file
  let chars ← (Utf8.decode? bytes).mapError .notText
  return String.ofList (unifyLineEnds chars)

/-- What the file at a path says. Where there is none, it is an empty store. -/
def loaded (p : Path) (fs : FileSystem) : Except Failure Datum :=
  if fs.exists' p then do (Datum.ofJson (← fs.text p)).mapError .json
  else .ok empty

theorem loaded_of_absent (absent : fs.exists' p = false) : loaded p fs = .ok empty := by
  rw [loaded, absent]
  rfl

/-- A document is read from its file, with its fields in order. -/
theorem loaded_of_document {d : Datum} (plain : d.Plain) (is_open : fs.Open p)
    (file : fs.occupant? (fs.place p) = some (.file (Utf8.encode (d.toJson layout).toList))) :
    loaded p fs = .ok (d.arranged layout) := by
  have read : fs.read p p.toString = .ok (Utf8.encode (d.toJson layout).toList) :=
    read_eq_ok_iff.mpr ⟨is_open, file⟩
  have text : fs.text p = .ok (d.toJson layout) := by
    rw [FileSystem.text, read]
    simp only [Except.mapError, bind, Except.bind, Utf8.decode?_encode]
    rw [unifyLineEnds_of_not_mem (no_carriage plain), String.ofList_toList]
    rfl
  rw [loaded, if_pos (exists'_iff.mpr ⟨is_open, _, file⟩), text]
  simp only [bind, Except.bind, ofJson_toJson plain]
  rfl

namespace Act

theorem readText_eq (p : Path) (s : Session) : (readText p).run s = (s.files.text p, s) := by
  rw [readText, run_bind_ok (run_get s), run_bind, run_lift, FileSystem.text]
  cases s.files.read p p.toString with
  | error fault => rfl
  | ok bytes =>
      simp only [Except.mapError, run_bind, run_lift]
      cases decoded : Utf8.decode? bytes with
      | error e => simp [decoded, bind, Except.bind]
      | ok chars =>
          simp only [decoded, bind, Except.bind]
          rfl

/-- Reading a store depends on the files only, and changes nothing. -/
theorem readStore_eq (p : Path) (s : Session) : (readStore p).run s = (loaded p s.files, s) := by
  rw [readStore, run_bind_ok (run_get s), loaded]
  split
  · rw [run_bind, readText_eq]
    cases s.files.text p with
    | error fault => rfl
    | ok text => exact run_lift _ _ s
  · rfl

theorem readStore_run (stored : Stored p store s.files) :
    ∃ read, (readStore p).run s = (.ok read, s) ∧ IsStore read ∧ SameRuns store read := by
  rw [readStore_eq]
  rcases stored.held with ⟨rfl, absent⟩ | ⟨is_open, file⟩
  · rw [loaded_of_absent (exists'_eq_false absent)]
    exact ⟨empty, rfl, isStore_empty, fun _ => rfl, fun _ _ => rfl⟩
  · obtain ⟨sound, same⟩ := stored.sound.arranged layout
    rw [loaded_of_document stored.sound.plain is_open file]
    exact ⟨_, rfl, sound, fun key => (same key).1, fun key => (same key).2⟩

/-- The new document stands in the draft, beside the store. -/
structure Drafted (p : Path) (bytes : List UInt8) (fs : FileSystem) : Prop where
  ready : fs.Ready p
  draft : fs.Ready (draft p)
  openStore : fs.Open p
  openDraft : fs.Open (BenchmarkStore.draft p)
  written : fs.occupant? (fs.place (BenchmarkStore.draft p)) = some (.file bytes)

theorem apart_of_ready (ready : fs.Ready p) (ready' : fs.Ready (draft p)) : fs.Apart (draft p) p :=
  apart_of_siblings ready' ready (draft_parent p).symm (draft_apart ready ready')

theorem drafted (ready : fs.Ready p) (ready' : fs.Ready (draft p)) (bytes : List UInt8) :
    ∃ made written, fs.ensureDirectories p.parent = .ok made ∧
      made.write (draft p) bytes = .ok written ∧ Drafted p bytes written := by
  obtain ⟨made, written, done, done', readyDraft, openDraft, -, old, -, file⟩ :=
    ready'.written fun _ => bytes
  rw [draft_parent] at done
  obtain ⟨stands, grows⟩ := ensureDirectories_grows done
  have spared : Spares p fs made := grows.spares ready.beside
  have spared' : Spares p made written :=
    spares_modify done' ((apart_of_ready ready ready').congr grows.current)
  obtain ⟨name, child, -⟩ := ready.named
  have is_open : made.Open p := by
    rw [child]
    exact open_child stands name
  exact ⟨made, written, done, done', (spared.trans spared').ready ready, readyDraft,
    is_open.congr_spares spared', openDraft, file⟩

theorem drafted_moved {bytes : List UInt8} (h : Drafted p bytes fs) :
    ∃ moved, fs.rename (draft p) p = .ok moved ∧ moved.Ready p ∧ moved.Ready (draft p) ∧
      moved.Open p ∧ moved.occupant? (moved.place p) = some (.file bytes) := by
  have other := draft_apart h.ready h.draft
  have apart := apart_of_ready h.ready h.draft
  have low : fs.place (draft p) ≠ [] := by
    obtain ⟨name, place⟩ := h.draft.place_eq
    rw [place]
    simp
  obtain ⟨between, moved, renamed, update, update'⟩ := rename_of_open h.openDraft h.written low
    h.openStore h.ready.names_ne_nil h.ready.free other
  have spared : Spares (draft p) fs between := update.spares apart.right
  have spared' : Spares p between moved :=
    update'.spares (by rw [along_congr update.current]; exact apart.left)
  refine ⟨moved, renamed, spared'.ready (update.ready (by simp) h.ready), ?_, ?_, ?_⟩
  · rw [← place_congr update.current] at update'
    exact update'.ready (by simp) (spared.ready h.draft)
  · exact (h.openStore.congr_update update h.ready.free).congr_spares spared'
  · rw [place_of_start spared'.start, spared'.here, place_congr update.current]
    exact update.here

end Act

end TestRoster
