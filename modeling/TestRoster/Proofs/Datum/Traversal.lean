import Mathlib.Data.List.Forall2

/-!
Lists that are read item by item.

Reading succeeds if every item is read, and otherwise ends at the first item that is not.
-/
namespace TestRoster

variable {α β ε : Type} {f : α → Except ε β} {xs : List α}

theorem mapM_eq_ok_iff {ys : List β} :
    xs.mapM f = .ok ys ↔ List.Forall₂ (fun x y => f x = .ok y) xs ys := by
  induction xs generalizing ys with
  | nil => cases ys <;> simp [pure, Except.pure]
  | cons x xs ih =>
      rw [List.mapM_cons]
      cases first : f x with
      | error e => cases ys <;> simp [bind, Except.bind, first]
      | ok y =>
          cases rest : xs.mapM f with
          | error e => cases ys <;> simp [bind, Except.bind, first, ← ih, rest]
          | ok ys' => cases ys <;> simp [bind, Except.bind, pure, Except.pure, first, ← ih, rest]

/-- Reading ends at the first item that is not read. -/
theorem mapM_eq_error_iff {e : ε} :
    xs.mapM f = .error e ↔ ∃ before x after, xs = before ++ x :: after ∧
      (∀ y ∈ before, ∃ b, f y = .ok b) ∧ f x = .error e := by
  induction xs with
  | nil => simp [pure, Except.pure]
  | cons x xs ih =>
      rw [List.mapM_cons]
      cases first : f x with
      | error e' =>
          constructor
          · intro stopped
            cases stopped
            exact ⟨[], x, xs, rfl, by simp, first⟩
          · rintro ⟨before, x', after, parts, each, stops⟩
            cases before with
            | nil =>
                cases parts
                cases first.symm.trans stops
                rfl
            | cons y before =>
                cases parts
                obtain ⟨b, read⟩ := each x List.mem_cons_self
                cases first.symm.trans read
      | ok y =>
          have later : (do return y :: (← xs.mapM f) : Except ε (List β)) = .error e ↔
              xs.mapM f = .error e := by
            cases xs.mapM f <;> simp [bind, Except.bind, pure, Except.pure]
          refine later.trans (ih.trans ⟨?_, ?_⟩)
          · rintro ⟨before, x', after, rfl, each, stops⟩
            exact ⟨x :: before, x', after, rfl, List.forall_mem_cons.mpr ⟨⟨y, first⟩, each⟩, stops⟩
          · rintro ⟨before, x', after, parts, each, stops⟩
            cases before with
            | nil => cases parts; cases first.symm.trans stops
            | cons x'' before =>
                cases parts
                exact ⟨before, x', after, rfl, (List.forall_mem_cons.mp each).2, stops⟩

theorem error_of_map {g : α → β} {x : Except ε α} {e : ε} (stops : x.map g = .error e) :
    x = .error e := by
  cases x with
  | ok a => cases stops
  | error e' => cases stops; rfl

end TestRoster
