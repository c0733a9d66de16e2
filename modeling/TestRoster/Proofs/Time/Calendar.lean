import TestRoster.Time.Moment

/-!
Moments on the line of time.

A moment shows a day and a time of day, which is so many microseconds since the calendar began. Its
instant is that less its distance to universal time. What two moments show is in the order of years,
months, days and so on down to microseconds.
-/
namespace TestRoster

namespace Moment

variable {m n : Moment} {year month day : Nat}

/-- A moment that the calendar has, in the years of four digits, less than a day from universal
time. -/
structure Valid (m : Moment) : Prop where
  year : 0 < m.year ∧ m.year < 10000
  month : 0 < m.month ∧ m.month ≤ 12
  day : 0 < m.day ∧ m.day ≤ daysIn m.year m.month
  hour : m.hour < 24
  minute : m.minute < 60
  second : m.second < 60
  microsecond : m.microsecond < 1000000
  offset : ∀ offset ∈ m.offset, offset.natAbs < 86400000000

instance (m : Moment) : Decidable m.Valid :=
  decidable_of_iff
    ((0 < m.year ∧ m.year < 10000) ∧ (0 < m.month ∧ m.month ≤ 12) ∧
      (0 < m.day ∧ m.day ≤ daysIn m.year m.month) ∧ m.hour < 24 ∧ m.minute < 60 ∧ m.second < 60 ∧
      m.microsecond < 1000000 ∧ ∀ offset ∈ m.offset, offset.natAbs < 86400000000)
    ⟨fun ⟨year, month, day, hour, minute, second, microsecond, offset⟩ =>
      ⟨year, month, day, hour, minute, second, microsecond, offset⟩,
      fun h => ⟨h.year, h.month, h.day, h.hour, h.minute, h.second, h.microsecond, h.offset⟩⟩

def daysOfYear (year : Nat) : Nat :=
  if isLeap year then 366 else 365

def daysBeforeYear : Nat → Nat
  | 0 | 1 => 0
  | year + 1 => daysBeforeYear year + daysOfYear year

def daysBeforeMonth (year : Nat) : Nat → Nat
  | 0 | 1 => 0
  | month + 1 => daysBeforeMonth year month + daysIn year month

def daysBefore (year month day : Nat) : Nat :=
  daysBeforeYear year + daysBeforeMonth year month + (day - 1)

theorem daysBeforeYear_succ (pos : 0 < year) :
    daysBeforeYear (year + 1) = daysBeforeYear year + daysOfYear year := by
  cases year with
  | zero => exact absurd pos (Nat.lt_irrefl 0)
  | succ year => rfl

theorem daysBeforeMonth_succ (year : Nat) (pos : 0 < month) :
    daysBeforeMonth year (month + 1) = daysBeforeMonth year month + daysIn year month := by
  cases month with
  | zero => exact absurd pos (Nat.lt_irrefl 0)
  | succ month => rfl

/-- The months of a year make up the year. -/
theorem daysBeforeMonth_thirteen (year : Nat) : daysBeforeMonth year 13 = daysOfYear year := by
  rw [daysOfYear]
  cases leap : isLeap year <;> simp [daysBeforeMonth, daysIn, leap]

theorem daysBeforeMonth_mono {later : Nat} (year : Nat) (pos : 0 < month) (le : month ≤ later) :
    daysBeforeMonth year month ≤ daysBeforeMonth year later := by
  induction le with
  | refl => exact Nat.le_refl _
  | step le ih =>
      rw [daysBeforeMonth_succ year (Nat.lt_of_lt_of_le pos le)]
      exact Nat.le_add_right_of_le ih

theorem daysBeforeYear_mono {later : Nat} (pos : 0 < year) (le : year ≤ later) :
    daysBeforeYear year ≤ daysBeforeYear later := by
  induction le with
  | refl => exact Nat.le_refl _
  | step le ih =>
      rw [daysBeforeYear_succ (Nat.lt_of_lt_of_le pos le)]
      exact Nat.le_add_right_of_le ih

/-- A day of a month comes before the next month begins. -/
theorem daysBefore_lt_month {later : Nat} (pos : 0 < month)
    (day' : 0 < day ∧ day ≤ daysIn year month)
    (less : month < later) :
    daysBefore year month day < daysBeforeYear year + daysBeforeMonth year later := by
  have next := daysBeforeMonth_mono year (Nat.succ_pos month) less
  rw [daysBeforeMonth_succ year pos] at next
  rw [daysBefore]
  omega

/-- A day of a year comes before the next year begins. -/
theorem daysBefore_lt_year {later : Nat} (pos : 0 < year) (month' : 0 < month ∧ month ≤ 12)
    (day' : 0 < day ∧ day ≤ daysIn year month) (less : year < later) :
    daysBefore year month day < daysBeforeYear later := by
  have next := daysBeforeYear_mono (Nat.succ_pos year) less
  rw [daysBeforeYear_succ pos, ← daysBeforeMonth_thirteen] at next
  exact Nat.lt_of_lt_of_le (daysBefore_lt_month month'.1 day' (by omega)) next

/-- Days are in the order of their years, months and days. -/
theorem daysBefore_lt (valid : m.Valid)
    (less : m.year < n.year ∨ m.year = n.year ∧
      (m.month < n.month ∨ m.month = n.month ∧ m.day < n.day)) :
    daysBefore m.year m.month m.day < daysBefore n.year n.month n.day := by
  rcases less with year | ⟨same, month | ⟨same', day⟩⟩
  · have next := daysBefore_lt_year valid.year.1 valid.month valid.day year
    exact Nat.lt_of_lt_of_le next (Nat.le_trans (Nat.le_add_right _ _) (Nat.le_add_right _ _))
  · have next := daysBefore_lt_month valid.month.1 valid.day month
    rw [same] at next ⊢
    exact Nat.lt_of_lt_of_le next (Nat.le_add_right _ _)
  · have pos := valid.day.1
    rw [same, same', daysBefore, daysBefore]
    omega

/-- So many microseconds are hours, minutes, seconds and microseconds. -/
def duration (hours minutes seconds microseconds : Nat) : Nat :=
  ((hours * 60 + minutes) * 60 + seconds) * 1000000 + microseconds

/-- Durations are in the order of their hours, minutes, seconds and microseconds. -/
theorem duration_lt_iff (h h' : Nat) {i i' s s' u u' : Nat} (minutes : i < 60 ∧ i' < 60)
    (seconds : s < 60 ∧ s' < 60) (microseconds : u < 1000000 ∧ u' < 1000000) :
    duration h i s u < duration h' i' s' u' ↔
      h < h' ∨ h = h' ∧ (i < i' ∨ i = i' ∧ (s < s' ∨ s = s' ∧ u < u')) := by
  rw [duration, duration]
  omega

/-- The microseconds that a moment shows, since the calendar began. -/
def shown (m : Moment) : Nat :=
  duration (daysBefore m.year m.month m.day * 24 + m.hour) m.minute m.second m.microsecond

/-- The distance to universal time. Where it is not known, a moment is taken to be of universal
time. -/
def distance (m : Moment) : Int :=
  m.offset.getD 0

/-- The microseconds of universal time since the calendar began. -/
def instant (m : Moment) : Int :=
  m.shown - m.distance

/-- What a moment shows, from years down to seconds. -/
def wholeFields (m : Moment) : List Nat :=
  [m.year, m.month, m.day, m.hour, m.minute, m.second]

/-- What a moment shows, from years down to microseconds. -/
def fields (m : Moment) : List Nat :=
  m.wholeFields ++ [m.microsecond]

theorem shown_lt_of_fields (valid : m.Valid) (valid' : n.Valid) (less : m.fields < n.fields) :
    m.shown < n.shown := by
  have minutes := And.intro valid.minute valid'.minute
  have seconds := And.intro valid.second valid'.second
  have microseconds := And.intro valid.microsecond valid'.microsecond
  have hours := And.intro valid.hour valid'.hour
  simp only [fields, wholeFields, List.cons_append, List.nil_append, List.cons_lt_cons_iff,
    List.lt_irrefl, and_false, or_false] at less
  rw [shown, shown, duration_lt_iff _ _ minutes seconds microseconds]
  have days : daysBefore m.year m.month m.day < daysBefore n.year n.month n.day ∨
      m.year = n.year ∧ m.month = n.month ∧ m.day = n.day ∧
        (m.hour < n.hour ∨ m.hour = n.hour ∧ (m.minute < n.minute ∨ m.minute = n.minute ∧
          (m.second < n.second ∨ m.second = n.second ∧ m.microsecond < n.microsecond))) := by
    by_cases date : m.year < n.year ∨ m.year = n.year ∧
        (m.month < n.month ∨ m.month = n.month ∧ m.day < n.day)
    · exact .inl (daysBefore_lt valid date)
    · right
      omega
  rcases days with earlier | ⟨year, month, day, later⟩
  · omega
  · rw [year, month, day]
    omega

theorem shown_of_fields (same : m.fields = n.fields) : m.shown = n.shown := by
  simp only [fields, wholeFields, List.cons_append, List.nil_append, List.cons.injEq, and_true]
    at same
  simp only [shown, same]

theorem fields_trichotomy (m n : Moment) :
    m.fields < n.fields ∨ m.fields = n.fields ∨ n.fields < m.fields := by
  simp only [fields, wholeFields, List.cons_append, List.nil_append, List.cons_lt_cons_iff,
    List.lt_irrefl, and_false, or_false, List.cons.injEq, and_true]
  omega

/-- What moments show is in the order of their fields. -/
theorem shown_lt_iff (valid : m.Valid) (valid' : n.Valid) : m.shown < n.shown ↔
    m.fields < n.fields := by
  refine ⟨fun less => ?_, shown_lt_of_fields valid valid'⟩
  rcases fields_trichotomy m n with before | same | after
  · exact before
  · exact absurd (shown_of_fields same) (Nat.ne_of_lt less)
  · exact absurd (shown_lt_of_fields valid' valid after) (Nat.lt_asymm less)

theorem shown_eq_iff (valid : m.Valid) (valid' : n.Valid) : m.shown = n.shown ↔
    m.fields = n.fields := by
  refine ⟨fun same => ?_, shown_of_fields⟩
  rcases fields_trichotomy m n with before | equal | after
  · exact absurd same (Nat.ne_of_lt (shown_lt_of_fields valid valid' before))
  · exact equal
  · exact absurd same (Nat.ne_of_gt (shown_lt_of_fields valid' valid after))

end Moment

end TestRoster
