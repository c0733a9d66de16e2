import TestRoster.Discovery.Step

/-!
What a discovery comes upon, as one list.

A step that contains its faults is described by the findings it comes upon and by the value it ends
with if no finding stops it. Names, issues and the log are views of the list; the same list serves
tolerant and strict discovery, which differ in how far they read it.
-/
namespace TestRoster

/-- One thing that a discovery comes upon. A fault is contained where it stands, with a warning. -/
inductive Finding where
  | name (text : String) (line : Int)
  | ambiguous (why : Ambiguity) (line : Int)
  | fault (cause : Fault) (line : Int) (warning : LogRecord)
  | note (record : LogRecord)

namespace Finding

def name? : Finding → Option (String × Int)
  | .name text line => some (text, line)
  | _ => none

def issue? : Finding → Option Issue
  | .ambiguous why line => some ⟨.ambiguous why, line⟩
  | .fault cause line _ => some ⟨.unexpectedShape cause, line⟩
  | _ => none

def fault? : Finding → Option Fault
  | .fault cause _ _ => some cause
  | _ => none

/-- What tolerant discovery logs of a finding. -/
def record? : Finding → Option LogRecord
  | .fault _ _ warning => some warning
  | .note record => some record
  | _ => none

/-- The log of findings. Strict discovery does not get beyond the first fault. -/
def log (strict : Bool) (fs : List Finding) : List LogRecord :=
  (if strict then fs.takeWhile (·.fault?.isNone) else fs).filterMap record?

def Shaped (fs : List Finding) : Prop :=
  ∀ f ∈ fs, ∀ cause, f.fault? = some cause → cause.isUnexpectedShape

def obstacle? (strict : Bool) (fs : List Finding) : Option Fault :=
  if strict then fs.findSome? fault? else none

theorem shaped_nil : Shaped [] := by
  intro f hf
  cases hf

theorem shaped_append {fs gs : List Finding} :
    Shaped (fs ++ gs) ↔ Shaped fs ∧ Shaped gs := by
  simp only [Shaped, List.mem_append]
  constructor
  · intro h
    exact ⟨fun f hf => h f (.inl hf), fun f hf => h f (.inr hf)⟩
  · rintro ⟨hfs, hgs⟩ f (hf | hf)
    · exact hfs f hf
    · exact hgs f hf

theorem shaped_flatMap {α : Type} {xs : List α} {g : α → List Finding}
    (h : ∀ x ∈ xs, Shaped (g x)) : Shaped (xs.flatMap g) := by
  intro f hf
  obtain ⟨x, hx, hfx⟩ := List.mem_flatMap.mp hf
  exact h x hx f hfx

/-- A fault of shaped findings is itself an unexpected shape. -/
theorem Shaped.of_obstacle {strict : Bool} {fs : List Finding} {cause : Fault}
    (h : Shaped fs) (ho : obstacle? strict fs = some cause) : cause.isUnexpectedShape := by
  cases strict with
  | false => cases ho
  | true =>
      obtain ⟨f, hf, hc⟩ := List.exists_of_findSome?_eq_some ho
      exact h f hf cause hc

theorem obstacle?_append (strict : Bool) (fs gs : List Finding) :
    obstacle? strict (fs ++ gs) = (obstacle? strict fs).or (obstacle? strict gs) := by
  cases strict with
  | false => rfl
  | true => exact List.findSome?_append

/-- The log goes on behind findings only if none of them is an obstacle. -/
theorem log_append (strict : Bool) (fs gs : List Finding) :
    log strict (fs ++ gs) =
      if obstacle? strict fs = none then log strict fs ++ log strict gs else log strict fs := by
  cases strict with
  | false => simp [log, obstacle?]
  | true =>
      simp only [log, obstacle?, if_true]
      induction fs with
      | nil => rfl
      | cons f rest ih =>
          cases hf : f.fault? with
          | some cause => simp [hf]
          | none =>
              simp only [List.cons_append, List.takeWhile_cons, List.findSome?_cons, hf,
                Option.isNone_none, if_true, List.filterMap_cons, ih]
              by_cases hr : rest.findSome? fault? = none <;> cases f.record? <;> simp [hr]

/-- A step that comes upon findings and, if none of them stops it, ends with `a`. -/
def outcome {α : Type} (strict : Bool) (fs : List Finding) (a : α) : Step α where
  log := log strict fs
  result :=
    match obstacle? strict fs with
    | some cause => .error cause
    | none => .ok a

section

variable {α β : Type} {strict : Bool} {fs gs : List Finding} {a : α} {b : β}

theorem outcome_nil (strict : Bool) (a : α) : outcome strict [] a = pure a := by
  cases strict <;> rfl

theorem outcome_bind (fs : List Finding) {next : α → Step β}
    (h : next a = outcome strict gs b) :
    outcome strict fs a >>= next = outcome strict (fs ++ gs) b := by
  change Step.andThen _ _ = _
  simp only [Step.andThen, outcome, obstacle?_append, log_append]
  cases obstacle? strict fs with
  | some cause => rfl
  | none => simp [h, outcome]

theorem outcome_map (strict : Bool) (fs : List Finding) (a : α) (g : α → β) :
    g <$> outcome strict fs a = outcome strict fs (g a) := by
  have h : (pure ∘ g) a = outcome strict [] (g a) := (outcome_nil strict (g a)).symm
  have hb := outcome_bind fs h
  rwa [List.append_nil] at hb

theorem outcome_say (strict : Bool) (record : LogRecord) :
    Step.say record = outcome strict [.note record] () := by
  cases strict <;> rfl

/-- Containment changes nothing where every fault has been contained before: strict discovery passes
an unexpected shape on as it is. -/
theorem recover_outcome (hs : Shaped fs) {handler : Fault → Step α}
    (hh : strict = true → ∀ cause, cause.isUnexpectedShape → handler cause = Step.fail cause) :
    (outcome strict fs a).recover handler = outcome strict fs a := by
  unfold Step.recover
  cases ho : obstacle? strict fs with
  | none => simp [outcome, ho]
  | some cause =>
      have isStrict : strict = true := by
        cases strict with
        | true => rfl
        | false => cases ho
      have passed := hh isStrict cause (hs.of_obstacle ho)
      simp [outcome, ho, passed, Step.fail]

/-- What containment makes of a step that ended with a fault of its own. -/
theorem recover_fail (cause : Fault) (handler : Fault → Step α) :
    (Step.fail cause).recover handler = handler cause := by
  simp [Step.recover, Step.fail]

end

end Finding

def Resolution.ofFindings (fs : List Finding) : Resolution where
  names := (fs.filterMap Finding.name?).map Prod.fst
  lines := (fs.filterMap Finding.name?).map Prod.snd
  issues := fs.filterMap Finding.issue?

namespace Resolution

theorem extend_nil (r : Resolution) : r.extend {} = r := by
  simp [extend]

theorem nil_extend (r : Resolution) : extend {} r = r := by
  simp [extend]

theorem extend_assoc (r s t : Resolution) : (r.extend s).extend t = r.extend (s.extend t) := by
  simp [extend]

@[simp] theorem ofFindings_nil : ofFindings [] = {} := rfl

theorem ofFindings_append (fs gs : List Finding) :
    ofFindings (fs ++ gs) = (ofFindings fs).extend (ofFindings gs) := by
  simp [ofFindings, extend]

theorem add_eq_extend (r : Resolution) (name : String) (line : Int) :
    r.add name line = r.extend (ofFindings [.name name line]) := by
  simp [add, extend, ofFindings, Finding.name?, Finding.issue?]

end Resolution

namespace Fault

/-- A contained fault is an unexpected shape, whatever it was. -/
theorem isUnexpectedShape_within (cause : Fault) (kind : String) :
    (cause.within kind).isUnexpectedShape := by
  unfold within
  split
  · assumption
  · rfl

theorem within_of_isUnexpectedShape {cause : Fault} (h : cause.isUnexpectedShape)
    (kind : String) : cause.within kind = cause := by
  simp [within, h]

end Fault

namespace Finding

def contained (kind : String) (line : Int) (skipped : String) (cause : Fault) : Finding :=
  .fault (cause.within kind) line
    ⟨.warning, "Skipping " ++ skipped ++ ": " ++ (cause.within kind).message⟩

theorem shaped_contained (kind : String) (line : Int) (skipped : String) (cause : Fault) :
    Shaped [contained kind line skipped cause] := by
  intro f hf shape hs
  obtain rfl := List.mem_singleton.mp hf
  obtain rfl := Option.some.inj hs
  exact cause.isUnexpectedShape_within kind

theorem contain_eq_outcome (cfg : Config) (kind : String) (line : Int) (skipped : String)
    (cause : Fault) :
    Step.contain cfg kind line skipped cause =
      outcome cfg.strict [contained kind line skipped cause]
        ⟨.unexpectedShape (cause.within kind), line⟩ := by
  cases hs : cfg.strict <;> simp [Step.contain, hs, outcome, contained, obstacle?, log, fault?,
    record?, Step.say, Step.fail, Bind.bind, Step.andThen, Pure.pure]

/-- Strict containment passes an unexpected shape on. -/
theorem contain_strict {cfg : Config} (hs : cfg.strict = true) (kind : String) (line : Int)
    (skipped : String) {cause : Fault} (hc : cause.isUnexpectedShape) :
    Step.contain cfg kind line skipped cause = Step.fail cause := by
  simp [Step.contain, hs, Fault.within_of_isUnexpectedShape hc]

end Finding

end TestRoster
