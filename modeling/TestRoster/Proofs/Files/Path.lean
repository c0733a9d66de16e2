import TestRoster.Files.Path
import TestRoster.Proofs.Text.Split

/-!
Paths as they are written.

A path whose names can stand in a directory is read back from its written form as it is.
-/
namespace TestRoster

/-- A directory can hold an entry of this name. -/
def IsName (name : String) : Prop :=
  name ≠ "" ∧ name ≠ "." ∧ name ≠ ".." ∧ '/' ∉ name.toList

namespace Path

/-- The path of what some names lead to from a path. -/
def descend (p : Path) (names : List String) : Path :=
  { p with names := p.names ++ names }

/-- A path that can be written so that it is read back: this leaves out what a slash or a single
point would hide. -/
structure Written (p : Path) : Prop where
  slashes : p.slashes ≤ 2
  names : ∀ name ∈ p.names, name ≠ "" ∧ name ≠ "." ∧ '/' ∉ name.toList

variable {p : Path} {names : List String} {s : String}

theorem mem_namesOf {name : String} (h : name ∈ namesOf s) :
    name ≠ "" ∧ name ≠ "." ∧ '/' ∉ name.toList := by
  obtain ⟨part, kept⟩ := List.mem_filter.mp h
  obtain ⟨cs, member, rfl⟩ := List.mem_map.mp part
  have free : '/' ∉ (String.ofList cs).toList := by
    rw [String.toList_ofList]
    exact not_mem_of_mem_splitAtChar member
  simp only [Bool.and_eq_true, bne_iff_ne] at kept
  exact ⟨kept.1, kept.2, free⟩

theorem written_ofString (s : String) : (ofString s).Written where
  slashes := by
    simp only [ofString]
    split
    · omega
    · split <;> omega
  names := fun _ h => mem_namesOf h

theorem Written.descend (h : p.Written) (each : ∀ name ∈ names, IsName name) :
    (p.descend names).Written where
  slashes := h.slashes
  names := fun name member => by
    rcases List.mem_append.mp member with before | after
    · exact h.names name before
    · obtain ⟨some', single, -, free⟩ := each name after
      exact ⟨some', single, free⟩

theorem namesOf_slashes (k : Nat) (s : String) :
    namesOf (String.ofList (List.replicate k '/') ++ s) = namesOf s := by
  induction k with
  | zero => simp
  | succ k ih =>
      rw [← ih]
      simp [namesOf, splitText, List.replicate_succ, splitAtChar]

theorem namesOf_intercalate (each : ∀ name ∈ names, name ≠ "" ∧ name ≠ "." ∧ '/' ∉ name.toList) :
    namesOf (String.intercalate "/" names) = names := by
  cases names with
  | nil => decide
  | cons name rest =>
      rw [namesOf, show "/" = String.singleton '/' from rfl,
        splitText_intercalate (List.cons_ne_nil name rest) fun part member =>
          (each part member).2.2,
        List.filter_eq_self.mpr]
      intro part member
      have kept := each part member
      simp [kept.1, kept.2.1]

/-- What stands in front of the names of a written path. -/
theorem leading_slashes (h : p.Written) :
    ((String.ofList (List.replicate p.slashes '/') ++
      String.intercalate "/" p.names).toList.takeWhile (· == '/')).length = p.slashes := by
  have front : (String.intercalate "/" p.names).toList.takeWhile (· == '/') = [] := by
    cases names : p.names with
    | nil => rfl
    | cons name rest =>
        obtain ⟨some', -, free⟩ := h.names name (by simp [names])
        have start : ∃ more, (String.intercalate "/" (name :: rest)).toList = name.toList ++
          more := by
          cases rest with
          | nil => exact ⟨[], by simp⟩
          | cons second rest => exact ⟨_, by rw [String.intercalate_cons_cons]; simp; rfl⟩
        obtain ⟨more, start⟩ := start
        rw [start]
        cases first : name.toList with
        | nil => exact absurd (String.toList_eq_nil_iff.mp first) some'
        | cons c cs =>
            have other : c ≠ '/' := fun same => free (by simp [first, same])
            simp [other]
  simp only [String.toList_append, String.toList_ofList]
  rw [List.takeWhile_append_of_pos (by simp), front]
  simp

/-- A written path is read back. -/
theorem ofString_toString (h : p.Written) : ofString p.toString = p := by
  obtain ⟨slashes, names⟩ := p
  by_cases empty : slashes = 0 ∧ names = []
  · obtain ⟨rfl, rfl⟩ := empty
    decide
  · have few : slashes ≤ 2 := h.slashes
    rw [toString, if_neg empty, ofString, leading_slashes h, namesOf_slashes,
      namesOf_intercalate h.names]
    have cases : slashes = 0 ∨ slashes = 1 ∨ slashes = 2 := by omega
    obtain rfl | rfl | rfl := cases <;> rfl

theorem toString_ne_empty (h : p.Written) : p.toString ≠ "" := by
  intro empty
  have back := ofString_toString h
  rw [empty] at back
  rw [← back] at empty
  exact absurd empty (by decide)

/-- A written path ends in a slash only if it has no names. -/
theorem toString_getLast? (h : p.Written) (some' : p.names ≠ []) :
    p.toString.toList.getLast? ≠ some '/' := by
  have empty : ¬ (p.slashes = 0 ∧ p.names = []) := fun both => some' both.2
  rw [toString, if_neg empty, String.toList_append]
  have ends : ∀ names : List String, names ≠ [] →
      (∀ name ∈ names, name ≠ "" ∧ name ≠ "." ∧ '/' ∉ name.toList) →
      ∃ c, c ≠ '/' ∧ (String.intercalate "/" names).toList.getLast? = some c := by
    intro names
    induction names with
    | nil => exact fun nothing => absurd rfl nothing
    | cons name rest ih =>
        intro _ each
        obtain ⟨first, later⟩ := List.forall_mem_cons.mp each
        cases rest with
        | nil =>
            have some' : name.toList ≠ [] := fun none => first.1 (String.toList_eq_nil_iff.mp none)
            refine ⟨name.toList.getLast some', ?_, ?_⟩
            · intro same
              exact first.2.2 (same ▸ List.getLast_mem some')
            · rw [String.intercalate_singleton, List.getLast?_eq_some_getLast some']
        | cons second rest =>
            obtain ⟨c, other, last⟩ := ih (List.cons_ne_nil second rest) later
            refine ⟨c, other, ?_⟩
            rw [String.intercalate_cons_cons, String.toList_append, List.getLast?_append, last]
            rfl
  obtain ⟨c, other, last⟩ := ends p.names some' h.names
  rw [List.getLast?_append, last]
  simpa using other

end Path

end TestRoster
