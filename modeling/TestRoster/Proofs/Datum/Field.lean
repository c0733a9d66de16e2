import TestRoster.Datum.Basic
import TestRoster.Text.Named

/-!
Looking up names.

In a list that has each name once a name is looked up wherever it stands, so the order of the list
does not matter. Giving a value to a name changes no other name.
-/
namespace TestRoster

section Lookup

variable {α : Type} {entries more : List (String × α)} {name other : String} {a : α}

theorem lookup_cons_eq :
    List.lookup other ((name, a) :: entries) =
      if other = name then some a else entries.lookup other := by
  by_cases h : other = name
  · simp [h]
  · simp [List.lookup_cons, beq_false_of_ne h, h]

/-- Names that appear once are looked up as they stand. -/
theorem lookup_eq_some_iff_mem (once : (entries.map Prod.fst).Nodup) :
    entries.lookup name = some a ↔ (name, a) ∈ entries := by
  induction entries with
  | nil => simp
  | cons entry entries ih =>
      obtain ⟨first, held⟩ := entry
      obtain ⟨fresh, once⟩ := List.nodup_cons.mp once
      rw [lookup_cons_eq]
      by_cases same : name = first
      · subst same
        have elsewhere : (name, a) ∉ entries := fun member =>
          fresh (List.mem_map.mpr ⟨_, member, rfl⟩)
        simp [elsewhere, eq_comm]
      · simp [ih once, same]

theorem mem_of_lookup (found : entries.lookup name = some a) : (name, a) ∈ entries := by
  induction entries with
  | nil => cases found
  | cons entry entries ih =>
      obtain ⟨first, held⟩ := entry
      rw [lookup_cons_eq] at found
      split at found
      next same =>
        cases found
        exact same ▸ List.mem_cons_self
      next => exact List.mem_cons_of_mem _ (ih found)

theorem lookup_perm (once : (entries.map Prod.fst).Nodup) (perm : more.Perm entries)
    (name : String) :
    more.lookup name = entries.lookup name := by
  have once' : (more.map Prod.fst).Nodup := (perm.map Prod.fst).nodup_iff.mpr once
  refine Option.ext fun a => ?_
  rw [lookup_eq_some_iff_mem once', lookup_eq_some_iff_mem once, perm.mem_iff]

theorem lookup_map {β : Type} (f : α → β) (name : String) :
    (entries.map fun e => (e.1, f e.2)).lookup name = (entries.lookup name).map f := by
  induction entries with
  | nil => rfl
  | cons entry entries ih =>
      obtain ⟨first, held⟩ := entry
      rw [List.map_cons, lookup_cons_eq, lookup_cons_eq, ih]
      split <;> rfl

theorem lookup_isSome_iff : (entries.lookup name).isSome = true ↔ name ∈ entries.map Prod.fst := by
  induction entries with
  | nil => simp
  | cons entry entries ih =>
      obtain ⟨first, held⟩ := entry
      rw [lookup_cons_eq, List.map_cons, List.mem_cons, ← ih]
      split
      next same => simp [same]
      next other => simp [other]

/-- Names that appear once are sorted in their strict order. -/
theorem sorted_by_name {le : String × α → String × α → Bool}
    (by_name : ∀ a b, le a b = true ↔ a.1 ≤ b.1) (once : (entries.map Prod.fst).Nodup) :
    (entries.mergeSort le).Pairwise fun a b => a.1 < b.1 := by
  have sorted : (entries.mergeSort le).Pairwise fun a b => le a b = true := by
    refine List.pairwise_mergeSort ?_ ?_ entries
    · intro a b c before after
      rw [by_name] at before after ⊢
      exact String.le_trans before after
    · intro a b
      rw [Bool.or_eq_true, by_name, by_name]
      exact String.le_total a.1 b.1
  have apart : (entries.mergeSort le).Pairwise fun a b => a.1 ≠ b.1 :=
    List.pairwise_map.mp (((List.mergeSort_perm entries le).map Prod.fst).nodup_iff.mpr once)
  refine sorted.imp₂ (fun a b before other => ?_) apart
  have before : a.1 ≤ b.1 := (by_name a b).mp before
  exact Classical.byContradiction fun after =>
    other (String.le_antisymm before (String.not_lt.mp after))

/-- Entries in the order of their names are told by which they are. -/
theorem eq_of_sorted_by_name {l l' : List (String × α)} (order : l.Pairwise fun a b => a.1 < b.1)
    (order' : l'.Pairwise fun a b => a.1 < b.1) (same : ∀ e, e ∈ l ↔ e ∈ l') : l = l' := by
  have once {l : List (String × α)} (sorted : l.Pairwise fun a b => a.1 < b.1) : l.Nodup :=
    sorted.imp fun {a b} (less : a.1 < b.1) (equal : a = b) => String.lt_irrefl b.1 (equal ▸ less)
  have perm : l.Perm l' := (List.perm_ext_iff_of_nodup (once order) (once order')).mpr same
  exact perm.eq_of_pairwise
    (fun a b _ _ less more => absurd (String.lt_trans less more) (String.lt_irrefl _)) order order'

theorem lookup_setNamed :
    (setNamed name a entries).lookup other =
      if other = name then some a else entries.lookup other := by
  induction entries with
  | nil => rw [setNamed, lookup_cons_eq]
  | cons entry entries ih =>
      obtain ⟨first, held⟩ := entry
      rw [setNamed]
      by_cases same : first = name
      · rw [if_pos same, lookup_cons_eq, lookup_cons_eq, same]
        split <;> rfl
      · rw [if_neg same, lookup_cons_eq, lookup_cons_eq, ih]
        by_cases h : other = first
        · simp [h, same]
        · simp [h]

theorem setNamed_fresh (fresh : name ∉ entries.map Prod.fst) :
    setNamed name a entries = entries ++ [(name, a)] := by
  induction entries with
  | nil => rfl
  | cons entry rest ih =>
      obtain ⟨other, later⟩ := List.ne_and_not_mem_of_not_mem_cons fresh
      rw [setNamed, if_neg other.symm, ih later]
      rfl

theorem mem_setNamed {e : String × α} (member : e ∈ setNamed name a entries) :
    e = (name, a) ∨ e ∈ entries := by
  induction entries with
  | nil => exact .inl (List.mem_singleton.mp member)
  | cons entry entries ih =>
      obtain ⟨first, held⟩ := entry
      rw [setNamed] at member
      split at member
      next same =>
        rcases List.mem_cons.mp member with rfl | later
        · exact .inl (by rw [same])
        · exact .inr (List.mem_cons_of_mem _ later)
      next =>
        rcases List.mem_cons.mp member with rfl | later
        · exact .inr List.mem_cons_self
        · exact (ih later).imp_right (List.mem_cons_of_mem _)

theorem names_setNamed :
    (setNamed name a entries).map Prod.fst =
      if name ∈ entries.map Prod.fst then entries.map Prod.fst
      else entries.map Prod.fst ++ [name] := by
  induction entries with
  | nil => rfl
  | cons entry entries ih =>
      obtain ⟨first, held⟩ := entry
      rw [setNamed]
      by_cases same : first = name
      · simp [same]
      · rw [if_neg same, List.map_cons, ih]
        by_cases member : name ∈ entries.map Prod.fst
        · simp [member]
        · simp only [List.map_cons, List.mem_cons, Ne.symm same, member, or_self,
            if_false, List.cons_append]

theorem nodup_setNamed (once : (entries.map Prod.fst).Nodup) :
    ((setNamed name a entries).map Prod.fst).Nodup := by
  rw [names_setNamed]
  split
  next => exact once
  next fresh =>
    refine List.nodup_append.mpr ⟨once, by simp, ?_⟩
    rintro a member b last rfl
    exact fresh (List.mem_singleton.mp last ▸ member)

end Lookup

end TestRoster
