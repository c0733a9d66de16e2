import TestRoster.Proofs.Benchmark.Recording

/-!
A store as what some runs left.

What is stored under a key and a time is what was stored there last. A store that holds this for
some runs holds it for one more run when that was recorded.
-/
namespace TestRoster

open FileSystem BenchmarkStore

/-- A benchmark run: what it is stored under, and its output. -/
structure BenchmarkRun where
  key : String
  stamp : String
  output : String
  deriving DecidableEq, Repr

/-- What the latest of some runs left under a key and a time. -/
def latest (runs : List BenchmarkRun) (key stamp : String) : Option String :=
  (runs.reverse.find? fun r => r.key == key && r.stamp == stamp).map BenchmarkRun.output

theorem latest_append (runs : List BenchmarkRun) (r : BenchmarkRun) (key stamp : String) :
    latest (runs ++ [r]) key stamp =
      if key = r.key ∧ stamp = r.stamp then some r.output else latest runs key stamp := by
  rw [latest, List.reverse_append, List.reverse_singleton, List.singleton_append, List.find?_cons]
  by_cases same : key = r.key ∧ stamp = r.stamp
  · rw [if_pos same, same.1, same.2]
    simp
  · rw [if_neg same]
    have other : (r.key == key && r.stamp == stamp) = false := by
      rw [Bool.and_eq_false_iff, beq_eq_false_iff_ne, beq_eq_false_iff_ne]
      exact (Classical.not_and_iff_not_or_not.mp same).imp Ne.symm Ne.symm
    rw [other]
    rfl

/-- The store holds the latest output of each key and time. -/
structure Holding (results : List BenchmarkRun) (store : Datum) : Prop where
  keys : ∀ key, (runs? store key).isSome = true ↔ ∃ r ∈ results, r.key = key
  outputs : ∀ key stamp, output? store key stamp = (latest results key stamp).map .str

theorem holding_nil : Holding [] empty where
  keys := by simp [runs?, empty]
  outputs := fun _ _ => rfl

/-- One store is another one after one run was recorded. -/
structure Inserted (r : BenchmarkRun) (store store' : Datum) : Prop where
  keys : ∀ key, (runs? store' key).isSome = true ↔ key = r.key ∨ (runs? store key).isSome = true
  outputs : ∀ key stamp, output? store' key stamp =
    if key = r.key ∧ stamp = r.stamp then some (.str r.output) else output? store key stamp

theorem Holding.insert {results : List BenchmarkRun} {store store' : Datum} {r : BenchmarkRun}
    (h : Holding results store) (inserted : Inserted r store store') :
      Holding (results ++ [r]) store' where
  keys := fun key => by
    rw [inserted.keys, h.keys]
    simp only [List.mem_append, List.mem_singleton, or_and_right, exists_or, exists_eq_left]
    rw [or_comm, eq_comm]
  outputs := fun key stamp => by
    rw [inserted.outputs, latest_append, h.outputs]
    split <;> rfl

variable {p : Path} {store : Datum} {s : Session}

/-- The store at a path holds the latest output of some runs for each key and time. -/
def StoreOf (p : Path) (results : List BenchmarkRun) (fs : FileSystem) : Prop :=
  ∃ store, Stored p store fs ∧ Holding results store

/-- What is read from such a store: the keys of the runs, and for each of them its outputs by
time. -/
theorem StoreOf.read {results : List BenchmarkRun} (h : StoreOf p results s.files) :
    ∃ store, (Act.readStore p).run s = (.ok store, s) ∧
      (∃ ks : List String, BenchmarkStore.keys store = .ok (ks.map .str) ∧ ks.Pairwise (· < ·) ∧
        ∀ key, key ∈ ks ↔ ∃ r ∈ results, r.key = key) ∧
      ∀ key, ∃ rs, BenchmarkStore.runs store key = .ok rs ∧ rs.Pairwise (fun a b => a.1 < b.1) ∧
        ∀ stamp d, (stamp, d) ∈ rs ↔
          ∃ output, latest results key stamp = some output ∧ d = .str output := by
  obtain ⟨store, stored, holding⟩ := h
  obtain ⟨read, runs, sound, same⟩ := Act.readStore_run (s := s) stored
  obtain ⟨ks, keys, order, listed⟩ := keys_eq sound
  refine ⟨read, runs, ⟨ks, keys, order, fun key => ?_⟩, fun key => ?_⟩
  · rw [listed, same.keys, holding.keys]
  · obtain ⟨rs, found, order, members⟩ := runs_eq sound key
    refine ⟨rs, found, order, fun stamp d => ?_⟩
    rw [members, same.outputs, holding.outputs, Option.map_eq_some_iff]
    simp only [eq_comm]

end TestRoster
