import TestRoster.Proofs.Benchmark.Filing
import TestRoster.Proofs.Datum.Range

/-!
Recording sets one output or nothing.

The file of a store may hold anything at all. Recording a run either fails, and the file holds what
it held, or it sets the output of one key and time: whatever else the file says it goes on to say,
only with its fields in order.
-/
namespace TestRoster

open FileSystem BenchmarkStore

namespace BenchmarkStore

def held? (store : Datum) (key : String) : Option Datum :=
  match store with
  | .dict fields => Datum.field? fields key
  | _ => none

/-- A store has a place for the runs of a key: it is a dictionary, and so is what it has for the
key, if anything. -/
def HasPlace (key : String) (store : Datum) : Prop :=
  (∃ fields, store = .dict fields) ∧ ∀ d, held? store key = some d → ∃ runs, d = .dict runs

/-- One output was set, and all else is as before with its fields in order: what the store has for
any other key, and the output of the key at any other time. -/
structure SetOutput (key stamp output : String) (store store' : Datum) : Prop where
  place : HasPlace key store
  dict : ∃ fields, store' = .dict fields ∧ (fields.map Prod.fst).Nodup
  others : ∀ other ≠ key, held? store' other = (held? store other).map (Datum.arranged layout)
  runs : ∃ runs, held? store' key = some (.dict runs) ∧ (runs.map Prod.fst).Nodup
  outputs : ∀ time, output? store' key time =
    if time = stamp then some (.str output)
    else (output? store key time).map (Datum.arranged layout)

variable {store store' : Datum} {key stamp output : String}

/-- An output is set exactly where there is a place for it. -/
theorem hasPlace_iff : HasPlace key store ↔
    ∃ store', insert store key stamp output = .ok store' := by
  constructor
  · rintro ⟨⟨fields, rfl⟩, place⟩
    cases found : Datum.field? fields key with
    | none =>
      exact ⟨_, insert_eq_ok_iff.mpr ⟨fields, [], rfl, congrArg (·.getD (.dict [])) found, rfl⟩⟩
    | some d =>
        obtain ⟨runs, rfl⟩ := place d found
        exact ⟨_, insert_eq_ok_iff.mpr ⟨fields, runs, rfl, congrArg (·.getD (.dict [])) found, rfl⟩⟩
  · rintro ⟨store', inserted⟩
    obtain ⟨fields, runs, rfl, held, -⟩ := insert_eq_ok_iff.mp inserted
    refine ⟨⟨fields, rfl⟩, fun d found => ⟨runs, ?_⟩⟩
    have found : Datum.field? fields key = some d := found
    rw [found] at held
    exact held

theorem fields_of_plain {fields : List (String × Datum)} (plain : (Datum.dict fields).Plain) :
    (fields.map Prod.fst).Nodup ∧ ∀ f ∈ fields, f.2.Plain := by
  cases plain with
  | dict once each => exact ⟨once, each⟩

theorem plain_setNamed {fields : List (String × Datum)} {d : Datum}
    (plain : (Datum.dict fields).Plain) (name : String) (value : d.Plain) :
    (Datum.dict (setNamed name d fields)).Plain := by
  obtain ⟨once, each⟩ := fields_of_plain plain
  refine .dict (nodup_setNamed once) fun f member => ?_
  rcases mem_setNamed member with rfl | old
  · exact value
  · exact each f old

/-- The runs of a key in a plain store are plain. -/
theorem plain_runs {fields runs : List (String × Datum)} (plain : (Datum.dict fields).Plain)
    (held : (Datum.field? fields key).getD (.dict []) = .dict runs) : (Datum.dict runs).Plain := by
  obtain ⟨-, each⟩ := fields_of_plain plain
  rw [← held]
  cases found : Datum.field? fields key with
  | none => exact .dict (by simp) (by simp)
  | some d => exact each _ (mem_of_lookup found)

/-- Setting an output in a plain store gives a plain store. With its fields in order, it differs
from the old one in that output only. -/
theorem insert_plain (plain : store.Plain) (inserted : insert store key stamp output = .ok store') :
    store'.Plain ∧ SetOutput key stamp output store (store'.arranged layout) := by
  have place : HasPlace key store := hasPlace_iff.mpr ⟨store', inserted⟩
  obtain ⟨fields, runs, rfl, held, rfl⟩ := insert_eq_ok_iff.mp inserted
  have plainRuns := plain_setNamed (plain_runs plain held) stamp (.str output)
  have plainStore := plain_setNamed plain key plainRuns
  obtain ⟨sortedRuns, runsIs, -, runsOnce, runsLooked⟩ :=
    arranged_lookup (fields_of_plain plainRuns).1 layout
  obtain ⟨sorted, is, -, once, looked⟩ := arranged_lookup (fields_of_plain plainStore).1 layout
  have here : sorted.lookup key = some (.dict sortedRuns) := by
    rw [looked, lookup_setNamed, if_pos rfl, Option.map_some, runsIs]
  have before : ∀ time, output? (.dict fields) key time = runs.lookup time := by
    intro time
    cases found : fields.lookup key with
    | none =>
        rw [Datum.field?, found] at held
        cases held
        simp [output?, runs?, found]
    | some d =>
        rw [Datum.field?, found] at held
        cases held
        simp [output?, runs?, found]
  rw [is]
  refine ⟨plainStore, place, ⟨sorted, rfl, once⟩, fun other apart => ?_,
    ⟨sortedRuns, here, runsOnce⟩, fun time => ?_⟩
  · rw [held?, Datum.field?, looked, lookup_setNamed, if_neg apart]
    rfl
  · rw [before]
    simp only [output?, runs?, here, Option.bind_some, runsLooked, lookup_setNamed]
    split
    · simp [Datum.arranged]
    · rfl

end BenchmarkStore

variable {p : Path} {fs fs' : FileSystem} {d : Datum} {s : Session}

/-- Whatever the file of a store says is plain. -/
theorem plain_of_loaded (read : loaded p fs = .ok d) : d.Plain := by
  rw [loaded] at read
  split at read
  · cases text : fs.text p with
    | error f =>
        rw [text] at read
        cases read
    | ok text' =>
        rw [text] at read
        cases document : Datum.ofJson text' with
        | error e => simp [bind, Except.bind, document, Except.mapError] at read
        | ok d' =>
            simp only [bind, Except.bind, document, Except.mapError, Except.ok.injEq] at read
            exact read ▸ Datum.plain_of_ofJson document
  · cases read
    exact .dict (by simp) (by simp)

/-- The file at a path was left alone: it holds what it held, and where it could be read before it
can be read now. -/
structure LeftAlone (p : Path) (fs fs' : FileSystem) : Prop where
  here : ∀ bytes, fs'.occupant? (fs'.place p) = some (.file bytes) ↔
    fs.occupant? (fs.place p) = some (.file bytes)
  read : ∀ bytes place, fs.read p place = .ok bytes → fs'.read p place = .ok bytes

theorem LeftAlone.refl (p : Path) (fs : FileSystem) : LeftAlone p fs fs :=
  ⟨fun _ => .rfl, fun _ _ held => held⟩

theorem Drafting.leftAlone (h : Drafting p fs fs') : LeftAlone p fs fs' :=
  ⟨fun bytes => by rw [place_congr h.current]; exact h.here bytes, fun _ _ held => h.read held⟩

/-- Recording is all or nothing, whatever the file of the store holds. Where it succeeds, the store
that is read is the one that was read before, with the output set. Where it fails, the file of the
store is left alone; and it fails only where the file cannot be read, where what it says has no
place for the output, or where the store or its draft cannot be written. -/
theorem recording_sets_one_output_or_nothing (p : Path) (key output : String)
    (moment : Option Moment)
    (s : Session) :
    (∃ s' store store', (Act.recordRun p key output moment).run s =
      (.ok (s.timed moment).1.stamp, s') ∧
        (Act.readStore p).run s = (.ok store, s) ∧ (Act.readStore p).run s' = (.ok store', s') ∧
        SetOutput key (s.timed moment).1.stamp output store store') ∨
      ∃ f s', (Act.recordRun p key output moment).run s = (.error f, s') ∧
        LeftAlone p s.files s'.files ∧
        ((Act.readStore p).run s = (.error f, s) ∨
          (∃ store, (Act.readStore p).run s = (.ok store, s) ∧ ¬ HasPlace key store) ∨
          ¬ (s.files.Writable p ∧ s.files.Writable (draft p))) := by
  have ends := Act.recordRun_ends p key output moment s
  have files := s.timed_files moment
  simp only [Act.readStore_eq]
  cases ran : (Act.recordRun p key output moment).run s with
  | mk answer s' =>
      rw [ran] at ends
      dsimp only at ends
      cases ends with
      | unread f failed =>
          rw [files] at failed
          exact .inr ⟨f, _, rfl, by rw [files]; exact .refl p s.files, .inl (by rw [failed])⟩
      | misused store fault read failed =>
          rw [files] at read
          refine .inr ⟨_, _, rfl, by rw [files]; exact .refl p s.files,
            .inr (.inl ⟨store, by rw [read], fun place => ?_⟩)⟩
          obtain ⟨store', inserted⟩ := hasPlace_iff.mp place
          exact nomatch failed.symm.trans inserted
      | unfiled store store' fault fs' read inserted unfiled =>
          rw [files] at unfiled
          exact .inr ⟨_, _, rfl, unfiled.drafting.leftAlone, .inr (.inr fun ⟨writable, writable'⟩ =>
            unfiled.not_ready ⟨ready_of_writable writable, ready_of_writable writable'⟩)⟩
      | filed store store' above beside moved read inserted filed =>
          rw [files] at read
          obtain ⟨plain, set⟩ := insert_plain (plain_of_loaded read) inserted
          obtain ⟨-, -, is_open, file⟩ := filed.stands
          exact .inl ⟨_, store, store'.arranged layout, rfl, by rw [read],
            by rw [loaded_of_document plain is_open file], set⟩

end TestRoster
