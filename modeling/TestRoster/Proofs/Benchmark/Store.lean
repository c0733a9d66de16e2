import TestRoster.Benchmark.Store
import TestRoster.Proofs.Datum.Field
import TestRoster.Proofs.Datum.Json

/-!
The store of benchmark runs as a map.

A store that only recording has made maps keys and times to outputs. Recording changes one place of
this map, and what is written to the file and read from it again is the same map.
-/
namespace TestRoster

theorem Json.lineEnd_store (depth : Nat) :
    ∀ c ∈ (BenchmarkStore.layout.lineEnd depth).toList, c = '\n' ∨ c = ' ' := by
  intro c member
  refine (Json.Layout.mem_lineEnd member).imp_right ?_
  rintro ⟨unit, ⟨⟩, inside⟩
  exact List.eq_of_mem_replicate (String.toList_ofList ▸ inside)

theorem Json.spaced_store : BenchmarkStore.layout.Spaced :=
  have spaced := Json.Layout.spaced_indented 2
  ⟨spaced.lineEnd, spaced.item, spaced.name⟩

namespace BenchmarkStore

/-- The runs of one key: each time once, with a text. -/
def IsRuns (d : Datum) : Prop :=
  ∃ runs, d = .dict runs ∧ (runs.map Prod.fst).Nodup ∧ ∀ r ∈ runs, ∃ s, r.2 = .str s

def IsStore (d : Datum) : Prop :=
  ∃ fields, d = .dict fields ∧ (fields.map Prod.fst).Nodup ∧ ∀ f ∈ fields, IsRuns f.2

def runs? (store : Datum) (key : String) : Option (List (String × Datum)) :=
  match store with
  | .dict fields =>
      match fields.lookup key with
      | some (.dict runs) => some runs
      | _ => none
  | _ => none

def output? (store : Datum) (key stamp : String) : Option Datum :=
  (runs? store key).bind (·.lookup stamp)

variable {store store' : Datum} {key stamp output : String}

theorem isStore_empty : IsStore empty :=
  ⟨[], rfl, by simp, by simp⟩

theorem runs?_dict {fields : List (String × Datum)} (key : String)
    (each : ∀ f ∈ fields, IsRuns f.2) :
    (∃ runs, fields.lookup key = some (.dict runs) ∧ runs? (.dict fields) key = some runs) ∨
      fields.lookup key = none ∧ runs? (.dict fields) key = none := by
  cases found : fields.lookup key with
  | none => exact .inr ⟨rfl, by simp [runs?, found]⟩
  | some d =>
      obtain ⟨runs, rfl, -⟩ := each _ (mem_of_lookup found)
      exact .inl ⟨runs, rfl, by simp [runs?, found]⟩

/-- An output is set in the runs of its key, or in runs that are new. -/
theorem insert_eq_ok_iff : insert store key stamp output = .ok store' ↔
    ∃ fields runs, store = .dict fields ∧ (Datum.field? fields key).getD (.dict []) = .dict runs ∧
      store' = .dict (setNamed key (.dict (setNamed stamp (.str output) runs)) fields) := by
  constructor
  · intro inserted
    rw [insert.eq_def] at inserted
    split at inserted
    next fields =>
      cases held : (Datum.field? fields key).getD (.dict []) with
      | dict runs =>
          rw [held] at inserted
          cases inserted
          exact ⟨fields, runs, rfl, held, rfl⟩
      | _ =>
          rw [held] at inserted
          cases inserted
    next => cases inserted
  · rintro ⟨fields, runs, rfl, held, rfl⟩
    rw [insert, held]
    rfl

/-- Recording changes what is stored under one key and time. -/
theorem insert_isStore (sound : IsStore store) (key stamp output : String) :
    ∃ store', insert store key stamp output = .ok store' ∧ IsStore store' ∧
      (∀ key', (runs? store' key').isSome ↔ key' = key ∨ (runs? store key').isSome) ∧
      ∀ key' stamp', output? store' key' stamp' =
        if key' = key ∧ stamp' = stamp then some (.str output) else output? store key' stamp' := by
  obtain ⟨fields, rfl, once, each⟩ := sound
  obtain ⟨runs, held, once', texts, before⟩ : ∃ runs,
      (Datum.field? fields key).getD (.dict []) = .dict runs ∧ (runs.map Prod.fst).Nodup ∧
        (∀ r ∈ runs, ∃ s, r.2 = .str s) ∧
        ∀ stamp', output? (.dict fields) key stamp' = runs.lookup stamp' := by
    rcases runs?_dict key each with ⟨runs, found, same⟩ | ⟨missing, same⟩
    · obtain ⟨_, is, once', texts⟩ := each _ (mem_of_lookup found)
      cases is
      exact ⟨runs, by rw [Datum.field?, found]; rfl, once', texts, by simp [output?, same]⟩
    · exact ⟨[], by rw [Datum.field?, missing]; rfl, by simp, by simp, by simp [output?, same]⟩
  refine ⟨_, insert_eq_ok_iff.mpr ⟨fields, runs, rfl, held, rfl⟩,
    ⟨_, rfl, nodup_setNamed once, ?_⟩, ?_, ?_⟩
  · intro f member
    rcases mem_setNamed member with rfl | old
    · refine ⟨_, rfl, nodup_setNamed once', fun r member => ?_⟩
      rcases mem_setNamed member with rfl | old
      · exact ⟨output, rfl⟩
      · exact texts r old
    · exact each f old
  · intro key'
    by_cases same : key' = key
    · simp [runs?, lookup_setNamed, same]
    · simp [runs?, lookup_setNamed, same]
  · intro key' stamp'
    by_cases same : key' = key
    · subst same
      rw [before]
      simp [output?, runs?, lookup_setNamed]
    · simp [output?, runs?, lookup_setNamed, same]

theorem IsRuns.plain {d : Datum} (h : IsRuns d) : d.Plain := by
  obtain ⟨runs, rfl, once, texts⟩ := h
  refine .dict once fun r member => ?_
  obtain ⟨s, text⟩ := texts r member
  rw [text]
  exact .str s

theorem IsStore.plain (h : IsStore store) : store.Plain := by
  obtain ⟨fields, rfl, once, each⟩ := h
  exact .dict once fun f member => (each f member).plain

theorem arranged_dict (l : Json.Layout) (fields : List (String × Datum)) :
    ∃ arranged, (Datum.dict fields).arranged l = .dict arranged ∧
      arranged.Perm (fields.map fun f => (f.1, f.2.arranged l)) := by
  refine ⟨l.arrange (Datum.arrangedFields l fields), by rw [Datum.arranged], ?_⟩
  rw [Datum.arrangedFields_eq_map]
  exact l.arrange_perm _

/-- The runs of a key, with their fields in order. -/
theorem IsRuns.arranged {d : Datum} (h : IsRuns d) (l : Json.Layout) :
    ∃ runs sorted, d = .dict runs ∧ d.arranged l = .dict sorted ∧ sorted.Perm runs ∧
      IsRuns (d.arranged l) := by
  obtain ⟨runs, rfl, once, texts⟩ := h
  obtain ⟨sorted, is, perm⟩ := arranged_dict l runs
  have same : (runs.map fun r => (r.1, r.2.arranged l)) = runs.map id := by
    refine List.map_congr_left fun r member => ?_
    obtain ⟨s, text⟩ := texts r member
    rw [text, Datum.arranged]
    · exact Prod.ext rfl text.symm
    · simp
    · simp
  rw [same, List.map_id] at perm
  refine ⟨runs, sorted, rfl, is, perm, sorted, is, ?_, ?_⟩
  · exact (perm.map Prod.fst).nodup_iff.mpr once
  · exact fun r member => texts r (perm.mem_iff.mp member)

/-- A dictionary with its fields in order has the same fields, with theirs in order. -/
theorem arranged_lookup {fields : List (String × Datum)} (once : (fields.map Prod.fst).Nodup)
    (l : Json.Layout) :
    ∃ sorted, (Datum.dict fields).arranged l = .dict sorted ∧
      sorted.Perm (fields.map fun f => (f.1, f.2.arranged l)) ∧ (sorted.map Prod.fst).Nodup ∧
      ∀ name, sorted.lookup name = (fields.lookup name).map (Datum.arranged l) := by
  obtain ⟨sorted, is, perm⟩ := arranged_dict l fields
  have names : (fields.map fun f => (f.1, f.2.arranged l)).map Prod.fst = fields.map Prod.fst := by
    rw [List.map_map]
    rfl
  have once' : ((fields.map fun f => (f.1, f.2.arranged l)).map Prod.fst).Nodup := names ▸ once
  refine ⟨sorted, is, perm, (perm.map Prod.fst).nodup_iff.mpr once', fun name => ?_⟩
  rw [lookup_perm once' perm, lookup_map]

/-- A store with its fields in order is the same map. -/
theorem IsStore.arranged (h : IsStore store) (l : Json.Layout) :
    IsStore (store.arranged l) ∧
      ∀ key, (runs? (store.arranged l) key).isSome = (runs? store key).isSome ∧
        ∀ stamp, output? (store.arranged l) key stamp = output? store key stamp := by
  obtain ⟨fields, rfl, once, each⟩ := h
  obtain ⟨sorted, is, perm, once', looked⟩ := arranged_lookup once l
  rw [is]
  refine ⟨⟨sorted, rfl, once', fun f member => ?_⟩, fun key => ?_⟩
  · obtain ⟨g, inside, rfl⟩ := List.mem_map.mp (perm.mem_iff.mp member)
    obtain ⟨-, -, -, -, -, runs⟩ := (each g inside).arranged l
    exact runs
  · cases found : fields.lookup key with
    | none => simp [runs?, output?, looked, found]
    | some d =>
        obtain ⟨runs, inOrder, rfl, is', perm', -⟩ := (each _ (mem_of_lookup found)).arranged l
        obtain ⟨_, is'', once'', -⟩ := each _ (mem_of_lookup found)
        cases is''
        simp [runs?, output?, looked, found, is', lookup_perm once'' perm']

theorem ofJson_toJson (plain : store.Plain) :
    Datum.ofJson (store.toJson layout) = .ok (store.arranged layout) :=
  Datum.ofJson_toJson Json.spaced_store plain

theorem no_carriage (plain : store.Plain) : '\r' ∉ (store.toJson layout).toList := by
  intro member
  refine Json.forall_mem_write (P := fun c => c ≠ '\r') ?_ ?_ ?_ ?_ plain 0 _ member rfl
  · rintro c visible rfl
    exact absurd visible (by decide)
  · rintro depth c here rfl
    exact absurd (Json.lineEnd_store depth _ here) (by decide)
  · simp [layout, Json.Layout.indented]
  · simp [layout, Json.Layout.indented]

/-- The runs of a key are shown as they are stored, in the order of their times. -/
theorem runs_eq (h : IsStore store) (key : String) :
    ∃ rs, runs store key = .ok rs ∧ rs.Pairwise (fun a b => a.1 < b.1) ∧
      ∀ stamp d, (stamp, d) ∈ rs ↔ output? store key stamp = some d := by
  obtain ⟨fields, rfl, once, each⟩ := h
  have shown : ∀ rs : List (String × Datum), (rs.map Prod.fst).Nodup →
      (rs.mergeSort fun a b => decide (a.1 ≤ b.1)).Pairwise (fun a b => a.1 < b.1) ∧
        ∀ stamp d, (stamp, d) ∈ rs.mergeSort (fun a b => decide (a.1 ≤ b.1)) ↔
          rs.lookup stamp = some d := fun rs once =>
    ⟨sorted_by_name (fun _ _ => decide_eq_true_iff) once, fun stamp d => by
      rw [(List.mergeSort_perm _ _).mem_iff, lookup_eq_some_iff_mem once]⟩
  rcases runs?_dict key each with ⟨rs, found, same⟩ | ⟨missing, same⟩
  · obtain ⟨_, is, once', -⟩ := each _ (mem_of_lookup found)
    cases is
    obtain ⟨order, members⟩ := shown rs once'
    exact ⟨_, by simp [runs, Datum.itemD, Datum.field?, found, bind, Except.bind, pure,
      Except.pure],
      order, fun stamp d => by rw [members, output?, same]; rfl⟩
  · obtain ⟨order, members⟩ := shown [] (by simp)
    exact ⟨_, by simp [runs, Datum.itemD, Datum.field?, missing, bind, Except.bind, pure,
      Except.pure],
      order, fun stamp d => by rw [members, output?, same]; rfl⟩

/-- The keys are shown in order. -/
theorem keys_eq (h : IsStore store) :
    ∃ ks : List String, keys store = .ok (ks.map .str) ∧ ks.Pairwise (· < ·) ∧
      ∀ key, key ∈ ks ↔ (runs? store key).isSome := by
  obtain ⟨fields, rfl, once, each⟩ := h
  refine ⟨(fields.mergeSort fun a b => decide (a.1 ≤ b.1)).map Prod.fst, ?_, ?_, fun key => ?_⟩
  · simp [keys, pure, Except.pure]
  · exact List.pairwise_map.mpr (sorted_by_name (fun _ _ => decide_eq_true_iff) once)
  · rw [((List.mergeSort_perm _ _).map Prod.fst).mem_iff, ← lookup_isSome_iff]
    rcases runs?_dict key each with ⟨rs, found, same⟩ | ⟨missing, same⟩
    · simp [found, same]
    · simp [missing, same]

end BenchmarkStore

end TestRoster
