import Mathlib.Algebra.Group.Nat.Defs
import Mathlib.Data.List.Forall2
import TestRoster.Proofs.Time.Calendar

/-!
Moments in the order of their written forms.

The fields of a date and a time of day are written with as many digits each as the largest of them
needs, so the written forms are in the order of what the moments show. Where two moments show the
same, the distances to universal time decide: those ahead of it come first, by hours ahead, and then
those behind it, by hours behind.
-/
namespace TestRoster

namespace Moment

variable {m n : Moment} {a b width : Nat} {r s : List Char} {o o' : Int}

/-- Where two lists have beginnings of the same length, these decide first. -/
theorem append_lt_append_iff {α : Type} [LT α] [Std.Irrefl fun a b : α => a < b] {l l' r s : List α}
    (same : l.length = l'.length) : l ++ r < l' ++ s ↔ l < l' ∨ l = l' ∧ r < s := by
  induction l generalizing l' with
  | nil =>
      rw [List.length_eq_zero_iff.mp same.symm]
      simp
  | cons c l ih =>
      obtain ⟨d, l', rfl⟩ := List.exists_cons_of_length_eq_add_one same.symm
      rw [List.cons_append, List.cons_append, List.cons_lt_cons_iff, List.cons_lt_cons_iff,
        ih (Nat.succ.inj same), List.cons.injEq]
      grind

def lastDigits : Nat → Nat → List Char
  | 0, _ => []
  | width + 1, n => lastDigits width (n / 10) ++ [Nat.digitChar (n % 10)]

theorem length_lastDigits (width n : Nat) : (lastDigits width n).length = width := by
  induction width generalizing n with
  | zero => rfl
  | succ width ih => rw [lastDigits, List.length_append, ih, List.length_singleton]

theorem digitChar_lt_iff : ∀ a < 10, ∀ b < 10, Nat.digitChar a < Nat.digitChar b ↔ a < b := by
  decide

theorem digitChar_inj : ∀ a < 10, ∀ b < 10, Nat.digitChar a = Nat.digitChar b ↔ a = b := by
  decide

theorem lastDigits_inj (small : a < 10 ^ width) (small' : b < 10 ^ width)
    (same : lastDigits width a = lastDigits width b) : a = b := by
  induction width generalizing a b with
  | zero => omega
  | succ width ih =>
      obtain ⟨front, last⟩ := List.append_inj same (by rw [length_lastDigits, length_lastDigits])
      have tens := ih (Nat.div_lt_of_lt_mul (Nat.pow_succ' ▸ small))
        (Nat.div_lt_of_lt_mul (Nat.pow_succ' ▸ small')) front
      have ones := (digitChar_inj _ (Nat.mod_lt a (by decide)) _ (Nat.mod_lt b (by decide))).mp
        (List.head_eq_of_cons_eq last)
      omega

/-- Numbers are in the order of their digits, if these are as many. -/
theorem lastDigits_lt_iff (small : a < 10 ^ width) (small' : b < 10 ^ width) :
    lastDigits width a < lastDigits width b ↔ a < b := by
  induction width generalizing a b with
  | zero => simp_all [lastDigits]
  | succ width ih =>
      have half := Nat.div_lt_of_lt_mul (Nat.pow_succ' ▸ small)
      have half' := Nat.div_lt_of_lt_mul (Nat.pow_succ' ▸ small')
      rw [lastDigits, lastDigits,
        append_lt_append_iff (by rw [length_lastDigits, length_lastDigits]), ih half half',
        List.cons_lt_cons_iff,
        digitChar_lt_iff _ (Nat.mod_lt a (by decide)) _ (Nat.mod_lt b (by decide))]
      have tens : lastDigits width (a / 10) = lastDigits width (b / 10) ↔ a / 10 = b / 10 :=
        ⟨lastDigits_inj half half', congrArg _⟩
      rw [tens]
      simp only [List.lt_irrefl, and_false, or_false]
      omega

theorem toList_padded_succ (small : a < 10 ^ (width + 1)) :
    (padded (width + 1) a).toList = lastDigits (width + 1) a := by
  rw [padded, String.toList_ofList]
  induction width generalizing a with
  | zero =>
      have small : a < 10 := small
      rw [Nat.toDigits_of_lt_base small, lastDigits, lastDigits, Nat.mod_eq_of_lt small]
      simp
  | succ width ih =>
      rw [lastDigits, ← ih (Nat.div_lt_of_lt_mul (Nat.pow_succ' ▸ small))]
      by_cases single : a < 10
      · rw [Nat.toDigits_of_lt_base single, Nat.div_eq_of_lt single, Nat.mod_eq_of_lt single,
          Nat.toDigits_zero, List.length_singleton, List.length_singleton, Nat.add_sub_cancel,
          Nat.add_sub_cancel, List.replicate_succ']
      · rw [Nat.toDigits_of_base_le (by decide) (Nat.not_lt.mp single), List.length_append,
          List.length_singleton, Nat.add_sub_add_right, List.append_assoc]

theorem toList_padded (pos : 0 < width) (small : a < 10 ^ width) :
    (padded width a).toList = lastDigits width a := by
  cases width with
  | zero => exact absurd pos (Nat.lt_irrefl 0)
  | succ width => exact toList_padded_succ small

/-- Numbers are written one after another, each in its width and behind its own text. -/
def spell : List (String × Nat) → List Nat → List Char → List Char
  | (front, width) :: shape, n :: ns, rest =>
    front.toList ++ (lastDigits width n ++ spell shape ns rest)
  | _, _, rest => rest

def Fits (shape : List (String × Nat)) (ns : List Nat) : Prop :=
  List.Forall₂ (fun place n => n < 10 ^ place.2) shape ns

/-- What is spelled in one shape is in the order of its numbers, and then of what is behind them. -/
theorem spell_lt_iff {shape : List (String × Nat)} {ns ns' : List Nat} (fits : Fits shape ns)
    (fits' : Fits shape ns') : spell shape ns r < spell shape ns' s ↔
      ns < ns' ∨ ns = ns' ∧ r < s := by
  induction fits generalizing ns' with
  | nil =>
      cases fits'
      simp [spell]
  | cons small fits ih =>
      obtain _ | ⟨small', fits'⟩ := fits'
      have digits : lastDigits _ _ = lastDigits _ _ ↔ _ = _ :=
        ⟨lastDigits_inj small small', congrArg _⟩
      rw [spell, spell, append_lt_append_iff rfl,
        append_lt_append_iff (by rw [length_lastDigits, length_lastDigits]), ih fits',
        lastDigits_lt_iff small small', digits, List.cons_lt_cons_iff, List.cons.injEq]
      simp only [List.lt_irrefl, false_or, true_and]
      grind

/-- A text that comes before every text with a point in front. -/
def BeforePoint (r : List Char) : Prop :=
  ∀ cs, r < '.' :: cs

theorem beforePoint_nil : BeforePoint [] :=
  fun cs => List.nil_lt_cons '.' cs

theorem beforePoint_cons {c : Char} (low : c < '.') (cs : List Char) : BeforePoint (c :: cs) :=
  fun _ => List.cons_lt_cons_iff.mpr (.inl low)

theorem toList_microsecondText (small : a < 1000000) :
    (microsecondText a).toList = if a = 0 then [] else '.' :: lastDigits 6 a := by
  rw [microsecondText]
  split
  next => rfl
  next => rw [String.toList_append, toList_padded (by decide) small]; rfl

/-- Fractions are in the order of their microseconds, and then of what is behind them. -/
theorem microsecondText_lt_iff (small : a < 1000000) (small' : b < 1000000) (before : BeforePoint r)
    (before' : BeforePoint s) :
    (microsecondText a).toList ++ r < (microsecondText b).toList ++ s ↔ a < b ∨ a = b ∧ r < s := by
  rw [toList_microsecondText small, toList_microsecondText small']
  by_cases none : a = 0
  · by_cases none' : b = 0
    · simp [none, none']
    · rw [if_pos none, if_neg none']
      refine iff_of_true (before _) (.inl ?_)
      omega
  · by_cases none' : b = 0
    · rw [if_neg none, if_pos none']
      refine iff_of_false (fun less => ?_) (by omega)
      exact List.lt_asymm less (before' _)
    · rw [if_neg none, if_neg none', List.cons_append, List.cons_append, List.cons_lt_cons_iff,
        append_lt_append_iff (by rw [length_lastDigits, length_lastDigits]),
        lastDigits_lt_iff small small']
      have digits : lastDigits 6 a = lastDigits 6 b ↔ a = b :=
        ⟨lastDigits_inj small small', congrArg _⟩
      rw [digits]
      simp

def secondsText (seconds microseconds : Nat) : List Char :=
  if seconds = 0 ∧ microseconds = 0 then []
  else spell [(":", 2)] [seconds] (microsecondText microseconds).toList

theorem secondsText_lt_iff {x x' u u' : Nat} (seconds : x < 60 ∧ x' < 60)
    (microseconds : u < 1000000 ∧ u' < 1000000) :
    secondsText x u < secondsText x' u' ↔ x < x' ∨ x = x' ∧ u < u' := by
  have fractions :=
    microsecondText_lt_iff microseconds.1 microseconds.2 beforePoint_nil beforePoint_nil
  rw [List.append_nil, List.append_nil] at fractions
  rw [secondsText, secondsText]
  by_cases none : x = 0 ∧ u = 0
  · by_cases none' : x' = 0 ∧ u' = 0
    · simp [none, none']
    · rw [if_pos none, if_neg none']
      exact iff_of_true (List.nil_lt_cons _ _) (by omega)
  · by_cases none' : x' = 0 ∧ u' = 0
    · rw [if_neg none, if_pos none']
      exact iff_of_false (List.not_lt_nil _) (by omega)
    · have fits : ∀ y < 60, Fits [(":", 2)] [y] := fun y small =>
        .cons (Nat.lt_trans small (by decide)) .nil
      rw [if_neg none, if_neg none', spell_lt_iff (fits x seconds.1) (fits x' seconds.2), fractions]
      simp [List.cons_lt_cons_iff]

def offsetShape : List (String × Nat) :=
  [("", 2), (":", 2)]

theorem toList_offsetText (small : o.natAbs < 86400000000) :
    (offsetText o).toList = (if o < 0 then '-' else '+') ::
      spell offsetShape [o.natAbs / 1000000 / 3600, o.natAbs / 1000000 / 60 % 60]
        (secondsText (o.natAbs / 1000000 % 60) (o.natAbs % 1000000)) := by
  have hours : o.natAbs / 1000000 / 3600 < 10 ^ 2 := by omega
  have minutes : o.natAbs / 1000000 / 60 % 60 < 10 ^ 2 := by omega
  have seconds : o.natAbs / 1000000 % 60 < 10 ^ 2 := by omega
  simp only [offsetText, String.toList_append, toList_padded (by decide) hours,
    toList_padded (by decide) minutes, offsetShape, spell, secondsText]
  split <;> split <;> simp [toList_padded (by decide) seconds, *]

theorem offsetShape_fits (small : o.natAbs < 86400000000) :
    Fits offsetShape [o.natAbs / 1000000 / 3600, o.natAbs / 1000000 / 60 % 60] := by
  have hours : o.natAbs / 1000000 / 3600 < 10 ^ 2 := by omega
  have minutes : o.natAbs / 1000000 / 60 % 60 < 10 ^ 2 := by omega
  exact .cons hours (.cons minutes .nil)

theorem duration_parts (k : Nat) :
    duration (k / 1000000 / 3600) (k / 1000000 / 60 % 60) (k / 1000000 % 60) (k % 1000000) = k := by
  rw [duration]
  omega

/-- A distance to universal time is written before another: one ahead before one behind, and both
ahead or both behind in the order of their sizes. -/
def OffsetBefore (o o' : Int) : Prop :=
  0 ≤ o ∧ (o' < 0 ∨ o < o') ∨ o < 0 ∧ o' < o

theorem offsetText_lt_iff (small : o.natAbs < 86400000000) (small' : o'.natAbs < 86400000000) :
    (offsetText o).toList < (offsetText o').toList ↔ OffsetBefore o o' := by
  have under (k : Nat) : k % 60 < 60 := Nat.mod_lt k (by decide)
  have under' (k : Nat) : k % 1000000 < 1000000 := Nat.mod_lt k (by decide)
  have sizes : spell offsetShape [o.natAbs / 1000000 / 3600, o.natAbs / 1000000 / 60 % 60]
        (secondsText (o.natAbs / 1000000 % 60) (o.natAbs % 1000000)) <
      spell offsetShape [o'.natAbs / 1000000 / 3600, o'.natAbs / 1000000 / 60 % 60]
        (secondsText (o'.natAbs / 1000000 % 60) (o'.natAbs % 1000000)) ↔ o.natAbs < o'.natAbs := by
    have parts := duration_lt_iff (o.natAbs / 1000000 / 3600) (o'.natAbs / 1000000 / 3600)
      ⟨under (o.natAbs / 1000000 / 60), under (o'.natAbs / 1000000 / 60)⟩
      ⟨under (o.natAbs / 1000000), under (o'.natAbs / 1000000)⟩
      ⟨under' o.natAbs, under' o'.natAbs⟩
    rw [duration_parts, duration_parts] at parts
    rw [parts, spell_lt_iff (offsetShape_fits small) (offsetShape_fits small'),
      secondsText_lt_iff ⟨under _, under _⟩ ⟨under' _, under' _⟩]
    simp only [List.cons_lt_cons_iff, List.cons.injEq, List.lt_irrefl, and_false, or_false,
      and_true]
    omega
  rw [toList_offsetText small, toList_offsetText small', List.cons_lt_cons_iff, sizes, OffsetBefore]
  by_cases behind : o < 0
  · by_cases behind' : o' < 0
    · rw [if_pos behind, if_pos behind']
      simp
      omega
    · rw [if_pos behind, if_neg behind']
      exact iff_of_false (not_or.mpr ⟨by decide, fun same => absurd same.1 (by decide)⟩) (by omega)
  · by_cases behind' : o' < 0
    · rw [if_neg behind, if_pos behind']
      exact iff_of_true (.inl (by decide)) (by omega)
    · rw [if_neg behind, if_neg behind']
      simp
      omega

/-- The fields of a date and a time of day down to seconds. -/
def stampShape : List (String × Nat) :=
  [("", 4), ("-", 2), ("-", 2), ("T", 2), (":", 2), (":", 2)]

theorem daysIn_le (year month : Nat) : daysIn year month ≤ 31 := by
  rw [daysIn]
  split
  · split <;> decide
  · split <;> decide

theorem lt_hundred {k : Nat} (small : k < 60) : k < 10 ^ 2 :=
  Nat.lt_trans small (by decide)

theorem stampShape_fits (valid : m.Valid) :
    Fits stampShape m.wholeFields := by
  have month : m.month < 60 := Nat.lt_of_le_of_lt valid.month.2 (by decide)
  have day : m.day < 60 := Nat.lt_of_le_of_lt (Nat.le_trans valid.day.2 (daysIn_le _ _)) (by decide)
  have hour : m.hour < 60 := Nat.lt_trans valid.hour (by decide)
  exact .cons valid.year.2
    (.cons (lt_hundred month) (.cons (lt_hundred day) (.cons (lt_hundred hour)
    (.cons (lt_hundred valid.minute) (.cons (lt_hundred valid.second) .nil)))))

theorem toList_stamp (valid : m.Valid) :
    m.stamp.toList = spell stampShape m.wholeFields
      ((microsecondText m.microsecond).toList ++ m.zoneText.toList) := by
  obtain _ | ⟨year, _ | ⟨month, _ | ⟨day, _ | ⟨hour, _ | ⟨minute, _ | ⟨second, _⟩⟩⟩⟩⟩⟩ :=
    stampShape_fits valid
  simp only [stamp, text, dateText, clockText, fractionText, String.toList_append, stampShape,
    wholeFields, spell,
    toList_padded (by decide) year, toList_padded (by decide) month, toList_padded (by decide) day,
    toList_padded (by decide) hour, toList_padded (by decide) minute,
      toList_padded (by decide) second,
    String.toList_empty, List.nil_append, List.append_assoc]

/-- The zone of a moment is written before any fraction would be. -/
theorem beforePoint_zoneText (valid : m.Valid) : BeforePoint m.zoneText.toList := by
  rw [zoneText]
  cases zone : m.offset with
  | none => exact beforePoint_nil
  | some offset =>
      dsimp only
      rw [toList_offsetText (valid.offset offset zone)]
      split
      · exact beforePoint_cons (by decide) _
      · exact beforePoint_cons (by decide) _

/-- One moment is listed before another: it shows an earlier time, or the same time and its distance
to universal time is written before. -/
def ListedBefore (m n : Moment) : Prop :=
  m.shown < n.shown ∨ m.shown = n.shown ∧ OffsetBefore m.distance n.distance

/-- Moments are in the order of their written forms. -/
theorem stamp_lt_iff (valid : m.Valid) (valid' : n.Valid) (zone : m.offset = some o)
    (zone' : n.offset = some o') : m.stamp < n.stamp ↔ m.ListedBefore n := by
  have zones : m.zoneText.toList < n.zoneText.toList ↔ OffsetBefore o o' := by
    rw [zoneText, zoneText, zone, zone']
    exact offsetText_lt_iff (valid.offset o zone) (valid'.offset o' zone')
  have distances : m.distance = o ∧ n.distance = o' := by
    rw [distance, distance, zone, zone']
    exact ⟨rfl, rfl⟩
  have lengths : m.wholeFields.length = n.wholeFields.length := rfl
  have before : m.fields < n.fields ↔ m.wholeFields < n.wholeFields ∨
      m.wholeFields = n.wholeFields ∧ m.microsecond < n.microsecond := by
    rw [fields, fields, append_lt_append_iff lengths, List.cons_lt_cons_iff]
    simp
  have same : m.fields = n.fields ↔
    m.wholeFields = n.wholeFields ∧ m.microsecond = n.microsecond := by
    constructor
    · intro equal
      obtain ⟨front, last⟩ := List.append_inj equal lengths
      exact ⟨front, List.head_eq_of_cons_eq last⟩
    · rintro ⟨front, last⟩
      rw [fields, fields, front, last]
  rw [String.lt_iff, toList_stamp valid, toList_stamp valid',
    spell_lt_iff (stampShape_fits valid) (stampShape_fits valid'),
    microsecondText_lt_iff valid.microsecond valid'.microsecond (beforePoint_zoneText valid)
      (beforePoint_zoneText valid'), zones, ListedBefore, shown_lt_iff valid valid',
    shown_eq_iff valid valid', distances.1, distances.2, before, same]
  grind

theorem listedBefore_trichotomy (m n : Moment) :
    m.ListedBefore n ∨ m.shown = n.shown ∧ m.distance = n.distance ∨ n.ListedBefore m := by
  rcases Nat.lt_trichotomy m.shown n.shown with before | same | after
  · exact .inl (.inl before)
  · have distances : OffsetBefore m.distance n.distance ∨ m.distance = n.distance ∨
        OffsetBefore n.distance m.distance := by
      rw [OffsetBefore, OffsetBefore]
      omega
    rcases distances with before | equal | after
    · exact .inl (.inr ⟨same, before⟩)
    · exact .inr (.inl ⟨same, equal⟩)
    · exact .inr (.inr (.inr ⟨same.symm, after⟩))
  · exact .inr (.inr (.inl after))

theorem eq_of_fields (same : m.fields = n.fields) (zone : m.offset = n.offset) : m = n := by
  cases m
  cases n
  simp_all [fields, wholeFields]

/-- Moments with a zone are told apart by their written forms. -/
theorem eq_of_stamp (valid : m.Valid) (valid' : n.Valid) (zone : m.offset = some o)
    (zone' : n.offset = some o') (same : m.stamp = n.stamp) : m = n := by
  rcases listedBefore_trichotomy m n with before | ⟨shown, distance⟩ | after
  · have less := (stamp_lt_iff valid valid' zone zone').mpr before
    rw [same] at less
    exact absurd less (String.lt_irrefl n.stamp)
  · refine eq_of_fields ((shown_eq_iff valid valid').mp shown) ?_
    rw [Moment.distance, Moment.distance, zone, zone'] at distance
    rw [zone, zone']
    exact congrArg some distance
  · have less := (stamp_lt_iff valid' valid zone' zone).mpr after
    rw [same] at less
    exact absurd less (String.lt_irrefl n.stamp)

end Moment

end TestRoster
