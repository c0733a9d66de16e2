import TestRoster.Run.Session

/-!
How actions run, and what they leave alone.

An action is taken apart where one step hands over to the next. What all steps leave alone the whole
action leaves alone, for every relation of sessions that lasts over two steps.
-/
namespace TestRoster

namespace Act

variable {α β : Type} {s : Session}

theorem run_pure (a : α) (s : Session) : (pure a : Act α).run s = (.ok a, s) := rfl

theorem run_bind (a : Act α) (f : α → Act β) (s : Session) :
    (a >>= f).run s =
      match a.run s with
      | (.ok x, s') => (f x).run s'
      | (.error e, s') => (.error e, s') := by
  simp only [run, ExceptT.run, StateT.run, bind, ExceptT.bind, ExceptT.mk, StateT.bind,
    ExceptT.bindCont]
  cases a s with
  | mk result s' => cases result <;> rfl

theorem run_bind_ok {a : Act α} {f : α → Act β} {x : α} {s s' : Session}
    (h : a.run s = (.ok x, s')) : (a >>= f).run s = (f x).run s' := by
  rw [run_bind, h]

theorem run_bind_error {a : Act α} {f : α → Act β} {e : Failure} {s s' : Session}
    (h : a.run s = (.error e, s')) : (a >>= f).run s = (.error e, s') := by
  rw [run_bind, h]

theorem run_get (s : Session) : (get : Act Session).run s = (.ok s, s) := rfl

theorem run_set (s s' : Session) : (set s' : Act Unit).run s = (.ok (), s') := rfl

theorem run_modify (f : Session → Session) (s : Session) :
    (modify f : Act Unit).run s = (.ok (), f s) := rfl

theorem run_lift {ε : Type} (wrap : ε → Failure) (x : Except ε α) (s : Session) :
    (lift wrap x).run s = (x.mapError wrap, s) := by
  cases x <;> rfl

theorem run_tryCatch (a : Act α) (f : Failure → Act α) (s : Session) :
    (tryCatch a f).run s =
      match a.run s with
      | (.ok x, s') => (.ok x, s')
      | (.error e, s') => (f e).run s' := by
  simp only [run, ExceptT.run, StateT.run, tryCatch, tryCatchThe, MonadExceptOf.tryCatch,
    ExceptT.tryCatch, ExceptT.mk, bind, StateT.bind]
  cases a s with
  | mk result s' => cases result <;> rfl

/-- A relation of sessions that lasts over any number of steps. -/
class Lasting (R : Session → Session → Prop) : Prop where
  refl : ∀ s, R s s
  trans : ∀ {s t u}, R s t → R t u → R s u

/-- Whatever comes of an action, it leaves a session that is related to the one before. -/
def Keeps (R : Session → Session → Prop) (a : Act α) : Prop :=
  ∀ s, R s (a.run s).2

section Keeps

variable {R R' : Session → Session → Prop}

theorem Keeps.mono {a : Act α} (h : Keeps R a) (sub : ∀ {s s'}, R s s' → R' s s') : Keeps R' a :=
  fun s => sub (h s)

theorem keeps_modify {f : Session → Session} (h : ∀ s, R s (f s)) : Keeps R (modify f : Act Unit) :=
  h

/-- What an action does with the session that it reads. -/
theorem Keeps.bind_get {f : Session → Act β} (h : ∀ s, R s ((f s).run s).2) :
    Keeps R (get >>= f) := by
  intro s
  rw [run_bind, run_get]
  exact h s

theorem keeps_ite {c : Prop} [Decidable c] {a b : Act α} (h : Keeps R a) (h' : Keeps R b) :
    Keeps R (if c then a else b) := by
  split
  · exact h
  · exact h'

variable [Lasting R]

theorem keeps_pure (a : α) : Keeps R (pure a : Act α) :=
  fun s => Lasting.refl s

theorem keeps_throw (e : Failure) : Keeps R (throw e : Act α) :=
  fun s => Lasting.refl s

theorem keeps_get : Keeps R (get : Act Session) :=
  fun s => Lasting.refl s

theorem keeps_lift {ε : Type} (wrap : ε → Failure) (x : Except ε α) : Keeps R (lift wrap x) :=
  fun s => by
    rw [run_lift]
    exact Lasting.refl s

theorem Keeps.bind {a : Act α} {f : α → Act β} (h : Keeps R a) (h' : ∀ x, Keeps R (f x)) :
    Keeps R (a >>= f) := by
  intro s
  have first := h s
  rw [run_bind]
  cases ran : a.run s with
  | mk result s' =>
      rw [ran] at first
      cases result with
      | ok x => exact Lasting.trans first (h' x s')
      | error e => exact first

theorem Keeps.map {a : Act α} (h : Keeps R a) (f : α → β) : Keeps R (f <$> a) := by
  rw [← bind_pure_comp]
  exact h.bind fun x => keeps_pure (f x)

theorem Keeps.tryCatch {a : Act α} {f : Failure → Act α} (h : Keeps R a) (h' : ∀ e, Keeps R (f e)) :
    Keeps R (tryCatch a f) := by
  intro s
  have first := h s
  rw [run_tryCatch]
  cases ran : a.run s with
  | mk result s' =>
      rw [ran] at first
      cases result with
      | ok x => exact first
      | error e => exact Lasting.trans first (h' e s')

theorem Keeps.discard {a : Act α} (h : Keeps R a) : Keeps R (discard a) :=
  h.map fun _ => ()

theorem keeps_forM {γ : Type} {f : γ → Act Unit} (h : ∀ x, Keeps R (f x)) (xs : List γ) :
    Keeps R (xs.forM f) := by
  induction xs with
  | nil => exact keeps_pure ()
  | cons x xs ih =>
      exact (h x).bind fun _ => ih

end Keeps

end Act

end TestRoster
