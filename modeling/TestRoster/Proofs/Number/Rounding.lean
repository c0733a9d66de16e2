import TestRoster.Number.Binary64
import Mathlib.Algebra.Order.Field.Power
import Mathlib.Data.Rat.Cast.Order
import Mathlib.Tactic.FieldSimp
import Mathlib.Tactic.Linarith
import Mathlib.Tactic.NormNum
import Mathlib.Tactic.Positivity
import Mathlib.Tactic.Ring

/-!
Which fractions are rounded to which binary number.

A finite number is canonical if its mantissa has 53 bits or its exponent is the least one. The
fractions that are rounded to it lie near it: at most half a unit of the last place away, and only a
quarter of one below a power of two, where the numbers lie closer together. At the ends of this
interval the even mantissa is taken.
-/
namespace TestRoster

theorem cast_twoPow (n : Nat) : (twoPow n : ℚ) = 2 ^ n := by
  rw [twoPow, Nat.pow_eq, Nat.cast_pow, Nat.cast_ofNat]

theorem cast_tenPow (n : Nat) : (tenPow n : ℚ) = 10 ^ n := by
  rw [tenPow, Nat.pow_eq, Nat.cast_pow, Nat.cast_ofNat]

theorem twoPow_pos (n : Nat) : 0 < twoPow n :=
  Nat.pow_pos (by decide)

theorem tenPow_pos (n : Nat) : 0 < tenPow n :=
  Nat.pow_pos (by decide)

theorem twoPow_lt_twoPow {m n : Nat} (below : m < n) : twoPow m < twoPow n :=
  Nat.pow_lt_pow_right (by decide) below

theorem zpow_eq_twoPow (n : Nat) : (2 : ℚ) ^ (n : Int) = twoPow n := by
  rw [zpow_natCast, cast_twoPow]

/-- A power as a fraction of natural powers. -/
theorem zpow_eq_div (b : ℚ) (e : Int) : b ^ e = b ^ e.toNat / b ^ (-e).toNat := by
  rcases le_total 0 e with up | down
  · obtain ⟨k, rfl⟩ := Int.eq_ofNat_of_zero_le up
    rw [Int.toNat_natCast, Int.toNat_of_nonpos (by omega), pow_zero, div_one, zpow_natCast]
  · obtain ⟨k, same⟩ := Int.eq_ofNat_of_zero_le (show 0 ≤ -e by omega)
    rw [Int.toNat_of_nonpos down, same, Int.toNat_natCast, pow_zero, one_div,
      show e = -(k : Int) by omega, zpow_neg, zpow_natCast]

/-- A fraction is rounded to an integer that lies within a half, if on a tie it is even. -/
theorem roundDiv_eq {num den m : Nat} (pos : 0 < den) (low : 2 * (m * den) ≤ 2 * num + den)
    (high : 2 * num ≤ 2 * (m * den) + den)
    (tie : 2 * (m * den) = 2 * num + den ∨ 2 * num = 2 * (m * den) + den → m % 2 = 0) :
    roundDiv num den = m := by
  have split : num = num / den * den + num % den := (Nat.div_add_mod' num den).symm
  have rest : num % den < den := Nat.mod_lt _ pos
  simp only [roundDiv]
  generalize num / den = q at split ⊢
  generalize num % den = r at split rest ⊢
  have above : q ≤ m := by
    refine Nat.le_of_not_lt fun below => ?_
    have : (m + 1) * den ≤ q * den := Nat.mul_le_mul_right den below
    rw [Nat.add_mul] at this
    omega
  have below : m ≤ q + 1 := by
    refine Nat.le_of_not_lt fun above => ?_
    have : (q + 1 + 1) * den ≤ m * den := Nat.mul_le_mul_right den above
    rw [Nat.add_mul, Nat.add_mul] at this
    omega
  obtain rfl | rfl : m = q ∨ m = q + 1 := by omega
  · have half : 2 * r ≤ den := by omega
    have even : 2 * r = den → m % 2 = 0 := fun same => tie (.inr (by omega))
    split
    · rfl
    · rw [if_neg (by omega), if_pos (even (by omega))]
  · rw [Nat.add_mul] at low tie
    have half : den ≤ 2 * r := by omega
    have even : 2 * r = den → (q + 1) % 2 = 0 := fun same => tie (.inl (by omega))
    rw [if_neg (by omega)]
    split
    · rfl
    · rw [if_neg (by have := even (by omega); omega)]

/-- The same with the fraction as a number. -/
theorem roundDiv_of_near {num den m : Nat} (pos : 0 < den) (low : (m : ℚ) - 1 / 2 ≤ num / den)
    (high : (num : ℚ) / den ≤ m + 1 / 2)
    (tie : (m : ℚ) - 1 / 2 = num / den ∨ (num : ℚ) / den = m + 1 / 2 → m % 2 = 0) :
    roundDiv num den = m := by
  have pos' : (0 : ℚ) < den := Nat.cast_pos.mpr pos
  rw [le_div_iff₀ pos'] at low
  rw [div_le_iff₀ pos'] at high
  rw [eq_div_iff pos'.ne', div_eq_iff pos'.ne'] at tie
  refine roundDiv_eq pos ?_ ?_ fun same => tie ?_
  · have : (2 * (m * den) : ℚ) ≤ 2 * num + den := by linarith
    exact_mod_cast this
  · have : (2 * num : ℚ) ≤ 2 * (m * den) + den := by linarith
    exact_mod_cast this
  · refine same.imp (fun same => ?_) fun same => ?_
    · have : (2 * (m * den) : ℚ) = 2 * num + den := by exact_mod_cast same
      linarith
    · have : (2 * num : ℚ) = 2 * (m * den) + den := by exact_mod_cast same
      linarith

/-- Rounding goes to one of the two integers around a fraction, and to an integer that it is. -/
theorem roundDiv_cases (num den : Nat) (pos : 0 < den) :
    roundDiv num den = num / den ∨ roundDiv num den = num / den + 1 ∧ num % den ≠ 0 := by
  simp only [roundDiv]
  split
  · exact .inl rfl
  · have rest : num % den ≠ 0 := by omega
    split
    · exact .inr ⟨rfl, rest⟩
    · split
      · exact .inl rfl
      · exact .inr ⟨rfl, rest⟩

theorem roundDiv_le {num den m : Nat} (pos : 0 < den) (high : num ≤ m * den) :
    roundDiv num den ≤ m := by
  have below : num / den ≤ m := Nat.div_le_of_le_mul (by rwa [Nat.mul_comm])
  rcases roundDiv_cases num den pos with same | ⟨next, rest⟩
  · omega
  · have apart : num / den ≠ m := by
      rintro rfl
      have := Nat.div_add_mod' num den
      omega
    omega

theorem le_roundDiv {num den m : Nat} (pos : 0 < den) (low : m * den ≤ num) :
    m ≤ roundDiv num den := by
  have below : m ≤ num / den := (Nat.le_div_iff_mul_le pos).mpr low
  rcases roundDiv_cases num den pos with same | ⟨next, -⟩ <;> omega

/-- Rounding adds a half at most. -/
theorem roundDiv_near (num : Nat) {den : Nat} (pos : 0 < den) :
    2 * (roundDiv num den * den) ≤ 2 * num + den := by
  have split : num = num / den * den + num % den := (Nat.div_add_mod' num den).symm
  simp only [roundDiv]
  generalize num / den = q at split ⊢
  generalize num % den = r at split ⊢
  split
  · omega
  · split
    · rw [Nat.add_mul]
      omega
    · split
      · omega
      · rw [Nat.add_mul]
        omega

/-- A fraction is rounded to an even integer or above it if it lies at most a half below it. -/
theorem le_roundDiv_iff {num den m : Nat} (pos : 0 < den) (even : m % 2 = 0) :
    m ≤ roundDiv num den ↔ (m : ℚ) - 1 / 2 ≤ num / den := by
  have pos' : (0 : ℚ) < den := Nat.cast_pos.mpr pos
  constructor
  · intro above
    have near : (2 * (m * den) : ℚ) ≤ 2 * num + den := by
      exact_mod_cast (Nat.mul_le_mul_left 2 (Nat.mul_le_mul_right den above)).trans
        (roundDiv_near num pos)
    rw [le_div_iff₀ pos']
    linarith only [near]
  · intro near
    rcases le_or_gt (m * den) num with low | high
    · exact le_roundDiv pos low
    · have high : (num : ℚ) < m * den := by exact_mod_cast high
      refine (roundDiv_of_near pos near ?_ fun _ => even).ge
      rw [div_le_iff₀ pos']
      linarith only [high, pos']

/-- What lies below an even integer is rounded to it from a half below on. -/
theorem roundDiv_eq_iff_of_lt {num den m : Nat} (pos : 0 < den) (even : m % 2 = 0)
    (under : (num : ℚ) / den < m) : roundDiv num den = m ↔ (m : ℚ) - 1 / 2 ≤ num / den := by
  have pos' : (0 : ℚ) < den := Nat.cast_pos.mpr pos
  have most : roundDiv num den ≤ m := by
    rw [div_lt_iff₀ pos'] at under
    exact roundDiv_le pos (by exact_mod_cast under.le)
  rw [← most.ge_iff_eq, le_roundDiv_iff pos even]

namespace Binary64

theorem scaled_eq (num : Nat) {den : Nat} (pos : 0 < den) (e : Int) :
    0 < (scaled num den e).2 ∧
      ((scaled num den e).1 : ℚ) / (scaled num den e).2 = num / den / 2 ^ e := by
  rw [scaled]
  split
  next up =>
    obtain ⟨k, rfl⟩ := Int.eq_ofNat_of_zero_le up
    refine ⟨Nat.mul_pos pos (twoPow_pos _), ?_⟩
    rw [Nat.cast_mul, cast_twoPow, Int.toNat_natCast, zpow_natCast, div_div]
  next down =>
    obtain ⟨k, same⟩ := Int.eq_ofNat_of_zero_le (show 0 ≤ -e by omega)
    refine ⟨pos, ?_⟩
    rw [Nat.cast_mul, cast_twoPow, same, Int.toNat_natCast, show e = -(k : Int) by omega, zpow_neg,
      zpow_natCast, div_inv_eq_mul, mul_div_right_comm]

/-- A rounded mantissa with its exponent, as a number: 54 bits are one bit too many. -/
def carried (negative : Bool) (mantissa : Nat) (exponent : Int) : Binary64 :=
  let (m, e) := if mantissa = twoPow 53 then (twoPow 52, exponent + 1) else (mantissa, exponent)
  if greatestExponent < e then .infinite negative else .finite negative m e

/-- Whether a scaled fraction has less than 53 bits before the point. -/
theorem scaled_div_lt_iff (num : Nat) {den : Nat} (pos : 0 < den) (e : Int) :
    (scaled num den e).1 / (scaled num den e).2 < twoPow 52 ↔ (num : ℚ) / den < 2 ^ 52 * 2 ^ e := by
  obtain ⟨below, fraction⟩ := scaled_eq num pos e
  have below' : (0 : ℚ) < (scaled num den e).2 := Nat.cast_pos.mpr below
  rw [Nat.div_lt_iff_lt_mul below, ← Nat.cast_lt (α := ℚ), Nat.cast_mul, cast_twoPow,
    ← div_lt_iff₀ below', fraction, div_lt_iff₀ (zpow_pos two_pos e)]

/-- A fraction is rounded in units of its 53rd bit, or of the least exponent. -/
theorem ofRatio_eq (negative : Bool) {num den : Nat} (pos : 0 < num) (pos' : 0 < den) :
    ∃ (top : Int) (n d : Nat), 0 < d ∧ (n : ℚ) / d = num / den / 2 ^ max leastExponent top ∧
      2 ^ 52 * 2 ^ top ≤ (num : ℚ) / den ∧ (num : ℚ) / den < 2 ^ 53 * 2 ^ top ∧
      ofRatio negative num den = carried negative (roundDiv n d) (max leastExponent top) := by
  have two : (2 : ℚ) ≠ 0 := two_ne_zero
  have den' : (0 : ℚ) < den := Nat.cast_pos.mpr pos'
  have low : (2 : ℚ) ^ num.log2 ≤ num := by exact_mod_cast Nat.log2_self_le pos.ne'
  have high : (num : ℚ) < 2 ^ (num.log2 + 1) := by exact_mod_cast Nat.lt_log2_self
  have low' : (2 : ℚ) ^ den.log2 ≤ den := by exact_mod_cast Nat.log2_self_le pos'.ne'
  have high' : (den : ℚ) < 2 ^ (den.log2 + 1) := by exact_mod_cast Nat.lt_log2_self
  rw [pow_succ] at high high'
  obtain ⟨guess, named⟩ : ∃ guess : Int, guess = (num.log2 : Int) - den.log2 - 52 := ⟨_, rfl⟩
  have unit : (2 : ℚ) ^ guess * (2 ^ 52 * 2 ^ den.log2) = 2 ^ num.log2 := by
    rw [named, zpow_sub₀ two, zpow_sub₀ two, zpow_natCast, zpow_natCast]
    have : (2 : ℚ) ^ den.log2 ≠ 0 := pow_ne_zero _ two
    field_simp
  have guessed : (0 : ℚ) < 2 ^ guess := zpow_pos two_pos guess
  have bound : 2 ^ 51 * 2 ^ guess < (num : ℚ) / den := by
    rw [lt_div_iff₀ den']
    nlinarith
  have bound' : (num : ℚ) / den < 2 ^ 53 * 2 ^ guess := by
    rw [div_lt_iff₀ den']
    nlinarith
  -- The guess from the bit lengths is the exponent or one too many, which the quotient tells.
  obtain ⟨top, chosen⟩ : ∃ top, top = if (scaled num den guess).1 / (scaled num den guess).2 <
    twoPow 52
    then guess - 1 else guess := ⟨_, rfl⟩
  obtain ⟨below, fraction⟩ := scaled_eq num pos' (max leastExponent top)
  have opened : ofRatio negative num den = carried negative
      (roundDiv (scaled num den (max leastExponent top)).1
        (scaled num den (max leastExponent top)).2)
      (max leastExponent top) := by
    rw [ofRatio, if_neg pos.ne', chosen, named]
    rfl
  have range : 2 ^ 52 * 2 ^ top ≤ (num : ℚ) / den ∧ (num : ℚ) / den < 2 ^ 53 * 2 ^ top := by
    rw [chosen]
    simp only [scaled_div_lt_iff num pos' guess]
    split
    next short =>
      have half : (2 : ℚ) ^ guess = 2 * 2 ^ (guess - 1) := by
        rw [← zpow_one_add₀ two, add_sub_cancel]
      rw [half] at bound short
      constructor <;> linarith
    next long => exact ⟨not_lt.mp long, bound'⟩
  exact ⟨top, _, _, below, fraction, range.1, range.2, opened⟩

/-- The mantissa has 53 bits, or the exponent is the least one. -/
structure Canonical (mantissa : Nat) (exponent : Int) : Prop where
  bits : mantissa < twoPow 53
  least : leastExponent ≤ exponent
  greatest : exponent ≤ greatestExponent
  full : twoPow 52 ≤ mantissa ∨ exponent = leastExponent

def IsCanonical : Binary64 → Prop
  | .finite _ mantissa exponent => Canonical mantissa exponent
  | _ => True

theorem canonical_zero : Canonical 0 leastExponent :=
  ⟨twoPow_pos 53, le_refl _, by decide, .inr rfl⟩

theorem isCanonical_carried (negative : Bool) {m : Nat} {e : Int} (bits : m ≤ twoPow 53)
    (least : leastExponent ≤ e) (full : twoPow 52 ≤ m ∨ e = leastExponent) :
    (carried negative m e).IsCanonical := by
  have half : twoPow 52 < twoPow 53 := twoPow_lt_twoPow (by decide)
  by_cases top : m = twoPow 53
  · rw [carried, if_pos top]
    dsimp only
    split
    · trivial
    · exact ⟨half, by omega, by omega, .inl (Nat.le_refl _)⟩
  · rw [carried, if_neg top]
    dsimp only
    split
    · trivial
    · exact ⟨Nat.lt_of_le_of_ne bits top, least, by omega, full⟩

theorem isCanonical_ofRatio (negative : Bool) (num : Nat) {den : Nat} (pos : 0 < den) :
    (ofRatio negative num den).IsCanonical := by
  rcases Nat.eq_zero_or_pos num with rfl | some'
  · exact canonical_zero
  · obtain ⟨top, n, d, below, fraction, low, high, opened⟩ := ofRatio_eq negative some' pos
    have below' : (0 : ℚ) < d := Nat.cast_pos.mpr below
    have unit : (0 : ℚ) < 2 ^ max leastExponent top := zpow_pos two_pos _
    have grows : (2 : ℚ) ^ top ≤ 2 ^ max leastExponent top :=
      zpow_le_zpow_right₀ one_le_two (le_max_right _ _)
    rw [opened]
    refine isCanonical_carried negative (roundDiv_le below ?_) (le_max_left _ _) ?_
    · have : (n : ℚ) / d < 2 ^ 53 := by
        rw [fraction, div_lt_iff₀ unit]
        linarith
      rw [div_lt_iff₀ below', ← cast_twoPow, ← Nat.cast_mul, Nat.cast_lt] at this
      exact this.le
    · rcases le_total leastExponent top with above | under
      · refine .inl (le_roundDiv below ?_)
        rw [max_eq_right above] at fraction unit
        have : 2 ^ 52 ≤ (n : ℚ) / d := by
          rw [fraction, le_div_iff₀ unit]
          exact low
        rw [le_div_iff₀ below', ← cast_twoPow, ← Nat.cast_mul, Nat.cast_le] at this
        exact this
      · exact .inr (max_eq_left under)

/-- How far below a number the fractions go that are rounded to it, in units of its last place. -/
def gap (mantissa : Nat) (exponent : Int) : ℚ :=
  if mantissa = twoPow 52 ∧ leastExponent < exponent then 1 / 4 else 1 / 2

/-- The fractions that are rounded to a number. -/
structure Near (mantissa : Nat) (exponent : Int) (x : ℚ) : Prop where
  low : (mantissa - gap mantissa exponent) * 2 ^ exponent ≤ x
  high : x ≤ (mantissa + 1 / 2) * 2 ^ exponent
  tie : x = (mantissa - gap mantissa exponent) * 2 ^ exponent ∨
    x = (mantissa + 1 / 2) * 2 ^ exponent →
    mantissa % 2 = 0

variable {m : Nat} {e : Int} {x : ℚ}

theorem gap_cases (m : Nat) (e : Int) :
    gap m e = 1 / 4 ∧ m = twoPow 52 ∧ leastExponent < e ∨
      gap m e = 1 / 2 ∧ ¬ (m = twoPow 52 ∧ leastExponent < e) := by
  rw [gap]
  split
  next low => exact .inl ⟨rfl, low⟩
  next other => exact .inr ⟨rfl, other⟩

theorem gap_le (m : Nat) (e : Int) : gap m e ≤ 1 / 2 := by
  rcases gap_cases m e with ⟨same, -⟩ | ⟨same, -⟩
  · rw [same]
    norm_num
  · rw [same]

/-- In units of its last place, a number is the integer nearest to what is near it. -/
theorem Near.roundDiv {num den : Nat} (near : Near m e x) (pos : 0 < den)
    (fraction : (num : ℚ) / den = x / 2 ^ e) : TestRoster.roundDiv num den = m := by
  have unit : (0 : ℚ) < 2 ^ e := zpow_pos two_pos e
  have low := near.low
  have gapped := gap_le m e
  rw [← le_div_iff₀ unit, ← fraction] at low
  have high := near.high
  rw [← div_le_iff₀ unit, ← fraction] at high
  refine roundDiv_of_near pos (by linarith) high fun tie => near.tie ?_
  rcases tie with bottom | top
  · left
    rcases gap_cases m e with ⟨same, -⟩ | ⟨same, -⟩
    · rw [same] at low
      linarith
    · rw [same, ← div_eq_iff unit.ne', ← fraction, bottom]
  · right
    rw [← div_eq_iff unit.ne', ← fraction, top]

/-- What is near a number is worth at most one bit more, and one bit less only below a power of
two. -/
theorem Near.top (near : Near m e x) (canonical : Canonical m e) {top : Int}
    (low : 2 ^ 52 * 2 ^ top ≤ x) (high : x < 2 ^ 53 * 2 ^ top) :
    max leastExponent top = e ∨ m = twoPow 52 ∧ leastExponent < e ∧ top = e - 1 := by
  have two : (2 : ℚ) ≠ 0 := two_ne_zero
  have unit : (0 : ℚ) < 2 ^ e := zpow_pos two_pos e
  have bits : (m : ℚ) + 1 ≤ 2 ^ 53 := by
    rw [← cast_twoPow]
    exact_mod_cast canonical.bits
  have upper : top ≤ e := by
    refine Int.not_lt.mp fun above => ?_
    have grows : (2 : ℚ) ^ (e + 1) ≤ 2 ^ top := zpow_le_zpow_right₀ one_le_two above
    rw [zpow_add_one₀ two] at grows
    have := near.high
    nlinarith
  rcases Int.lt_or_eq_of_le upper with below | rfl
  · rcases Int.lt_or_eq_of_le canonical.least with free | rfl
    · right
      -- One bit less leaves room for the least mantissa only, and two bits less for none.
      have full : twoPow 52 ≤ m := canonical.full.resolve_right (by omega)
      have full' : (2 ^ 52 : ℚ) ≤ m := by
        rw [← cast_twoPow]
        exact_mod_cast full
      have half : (2 : ℚ) ^ e = 2 * 2 ^ (e - 1) := by rw [← zpow_one_add₀ two, add_sub_cancel]
      have shrinks : (2 : ℚ) ^ top ≤ 2 ^ (e - 1) := zpow_le_zpow_right₀ one_le_two (by omega)
      have bottom := near.low
      have gapped := gap_le m e
      have mantissa : (m : ℚ) < 2 ^ 52 + 1 := by nlinarith
      have mantissa' : m = twoPow 52 := by
        have : m < twoPow 52 + 1 := by
          rw [← cast_twoPow] at mantissa
          exact_mod_cast mantissa
        omega
      refine ⟨mantissa', free, ?_⟩
      by_contra other
      have quarter : (2 : ℚ) ^ (e - 1) = 2 * 2 ^ (e - 2) := by
        rw [← zpow_one_add₀ two]
        congr 1
        omega
      have shrinks' : (2 : ℚ) ^ top ≤ 2 ^ (e - 2) := zpow_le_zpow_right₀ one_le_two (by omega)
      nlinarith
    · exact .inl (max_eq_left upper)
  · exact .inl (max_eq_right canonical.least)

/-- A fraction near a canonical number is rounded to it. -/
theorem ofRatio_of_near (negative : Bool) {num den : Nat} (canonical : Canonical m e)
    (pos : 0 < num)
    (pos' : 0 < den) (near : Near m e (num / den)) :
    ofRatio negative num den = .finite negative m e := by
  obtain ⟨top, n, d, below, fraction, low, high, opened⟩ := ofRatio_eq negative pos pos'
  rw [opened]
  rcases near.top canonical low high with same | ⟨rfl, free, rfl⟩
  · rw [same] at fraction ⊢
    rw [near.roundDiv below fraction, carried, if_neg canonical.bits.ne]
    exact if_neg (Int.not_lt.mpr canonical.greatest)
  · -- Just below a power of two the unit is half as large, and the mantissa is carried up to it.
    have half : (2 : ℚ) ^ e = 2 * 2 ^ (e - 1) := by rw [← zpow_one_add₀ two_ne_zero, add_sub_cancel]
    have unit : (0 : ℚ) < 2 ^ (e - 1) := zpow_pos two_pos _
    have bottom := near.low
    rw [gap, if_pos ⟨rfl, free⟩, cast_twoPow, half] at bottom
    rw [max_eq_right (show leastExponent ≤ e - 1 by omega)] at fraction ⊢
    have high' : (n : ℚ) / d < 2 ^ 53 := by rwa [fraction, div_lt_iff₀ unit]
    have low' : 2 ^ 53 - 1 / 2 ≤ (n : ℚ) / d := by
      rw [fraction, le_div_iff₀ unit]
      linarith
    have rounded : roundDiv n d = twoPow 53 := by
      rw [← cast_twoPow] at high' low'
      exact (roundDiv_eq_iff_of_lt below (by decide) high').mpr low'
    rw [rounded, carried, if_pos rfl]
    dsimp only
    rw [Int.sub_add_cancel]
    exact if_neg (Int.not_lt.mpr canonical.greatest)

/-- A canonical number is near itself. -/
theorem near_self (m : Nat) (e : Int) : Near m e (m * 2 ^ e) := by
  have unit : (0 : ℚ) < 2 ^ e := zpow_pos two_pos e
  have gapped : 0 < gap m e := by
    rcases gap_cases m e with ⟨same, -⟩ | ⟨same, -⟩ <;> rw [same] <;> norm_num
  have below := mul_pos gapped unit
  refine ⟨?_, ?_, ?_⟩
  · linarith only [below]
  · linarith only [unit]
  · rintro (same | same) <;> linarith only [same, below, unit]

/-- A whole number of at most 53 bits is a canonical number. -/
theorem exists_canonical_nat {n : Nat} (pos : 0 < n) (small : n < twoPow 53) :
    ∃ m e, Canonical m e ∧ (m : ℚ) * 2 ^ e = n := by
  have low := Nat.log2_self_le pos.ne'
  have high : n < 2 ^ (n.log2 + 1) := Nat.lt_log2_self
  have bits : n.log2 < 53 := (Nat.log2_lt pos.ne').mpr small
  obtain ⟨k, rest⟩ := Nat.exists_eq_add_of_le (Nat.le_of_lt_succ bits)
  have filled (i : Nat) : 2 ^ (n.log2 + i) * 2 ^ k = twoPow (52 + i) := by
    rw [← pow_add, twoPow, Nat.pow_eq]
    congr 1
    omega
  refine ⟨n * 2 ^ k, -(k : Int), ⟨?_, ?_, ?_, .inl ?_⟩, ?_⟩
  · rw [← filled 1]
    exact Nat.mul_lt_mul_of_pos_right high (Nat.two_pow_pos k)
  · rw [leastExponent]
    omega
  · rw [greatestExponent]
    omega
  · rw [← filled 0]
    exact Nat.mul_le_mul_right _ low
  · rw [Nat.cast_mul, Nat.cast_pow, Nat.cast_ofNat, zpow_neg, zpow_natCast,
      mul_inv_cancel_right₀ (pow_ne_zero k two_ne_zero)]

/-- The units of a number are worth what it is. -/
theorem units_eq (least : leastExponent ≤ e) :
    (units false m e : ℚ) = m * 2 ^ e * twoPow 1074 := by
  have scale : (2 : ℚ) ^ (e - leastExponent) = 2 ^ e * twoPow 1074 := by
    rw [zpow_sub₀ two_ne_zero, show leastExponent = -((1074 : Nat) : Int) from rfl, zpow_neg,
      div_inv_eq_mul, zpow_eq_twoPow]
  obtain ⟨k, same⟩ := Int.eq_ofNat_of_zero_le (show 0 ≤ e - leastExponent by omega)
  rw [same, zpow_eq_twoPow] at scale
  rw [units, same, Int.toNat_natCast, mul_assoc, ← scale, if_neg Bool.false_ne_true,
    Int.cast_natCast, Nat.cast_mul]

theorem ofRatio_nat {n : Nat} (small : n < twoPow 53) :
    ∃ (m : Nat) (e : Int), leastExponent ≤ e ∧ (m : ℚ) * 2 ^ e = n ∧
      ofRatio false n 1 = .finite false m e := by
  rcases Nat.eq_zero_or_pos n with rfl | pos
  · exact ⟨0, leastExponent, le_refl _, by rw [Nat.cast_zero, zero_mul], rfl⟩
  · obtain ⟨m, e, canonical, value⟩ := exists_canonical_nat pos small
    refine ⟨m, e, canonical.least, value, ofRatio_of_near false canonical pos Nat.one_pos ?_⟩
    rw [Nat.cast_one, div_one, ← value]
    exact near_self m e

/-- Whole numbers of 53 bits are not rounded. -/
theorem isInt_ofInt {n : Nat} (small : n < twoPow 53) : (ofInt n).isInt n = true := by
  obtain ⟨m, e, least, value, rounded⟩ := ofRatio_nat small
  have scaled : (units false m e : ℚ) = (n * twoPow 1074 : Int) := by
    rw [units_eq least, value, Int.cast_mul, Int.cast_natCast, Int.cast_natCast]
  rw [ofInt, Int.natAbs_natCast, decide_eq_false (by omega), rounded, isInt, decide_eq_true_iff]
  exact Int.cast_injective scaled

theorem isCanonical_ofDecimal (negative : Bool) (digits : Nat) (exponent : Int) :
    (ofDecimal negative digits exponent).IsCanonical := by
  rw [ofDecimal]
  split
  · exact canonical_zero
  · split
    · trivial
    · split
      · exact canonical_zero
      · split
        · exact isCanonical_ofRatio negative _ Nat.one_pos
        · exact isCanonical_ofRatio negative _ (tenPow_pos _)

/-- Thirteen bits are worth less than four digits. -/
theorem two_zpow_le_ten_pow {bits : Int} {n : Nat} (enough : bits ≤ 13 * (n : Int)) :
    (2 : ℚ) ^ bits ≤ 10 ^ (4 * n) := by
  have longer : (2 : ℚ) ^ bits ≤ 2 ^ ((13 * n : Nat) : Int) :=
    zpow_le_zpow_right₀ one_le_two (by rwa [Nat.cast_mul])
  rw [zpow_natCast, pow_mul] at longer
  rw [pow_mul]
  exact longer.trans (pow_le_pow_left₀ (by norm_num) (by norm_num) n)

/-- What is near a positive number is within the range of exponents that are worked out. -/
theorem Near.range (near : Near m e x) (canonical : Canonical m e) (pos : 0 < m) :
    ((10 : ℚ) ^ 400)⁻¹ < x ∧ x < 10 ^ 401 := by
  have two : (2 : ℚ) ≠ 0 := two_ne_zero
  have unit : (0 : ℚ) < 2 ^ e := zpow_pos two_pos e
  constructor
  · have least : (2 : ℚ) ^ (-1075 : Int) ≤ 2 ^ (e - 1) :=
      zpow_le_zpow_right₀ one_le_two (Int.sub_le_sub_right canonical.least 1)
    have half : (2 : ℚ) ^ e = 2 * 2 ^ (e - 1) := by rw [← zpow_one_add₀ two, add_sub_cancel]
    have some' : (1 : ℚ) ≤ m := by exact_mod_cast pos
    have low := near.low
    have gapped := gap_le m e
    have above : (2 : ℚ) ^ (e - 1) ≤ x := by nlinarith
    have strict : (10 : ℚ) ^ (4 * 83) < 10 ^ 400 := pow_lt_pow_right₀ (by norm_num) (by decide)
    have tiny : (2 : ℚ) ^ (1075 : Int) < 10 ^ 400 :=
      lt_of_le_of_lt (two_zpow_le_ten_pow (by decide)) strict
    refine lt_of_lt_of_le ?_ (least.trans above)
    rw [zpow_neg]
    exact inv_strictAnti₀ (zpow_pos two_pos _) tiny
  · have greatest : (2 : ℚ) ^ (e + 53) ≤ 2 ^ (1024 : Int) :=
      zpow_le_zpow_right₀ one_le_two (Int.add_le_add_right canonical.greatest 53)
    have bits : (m : ℚ) + 1 ≤ 2 ^ 53 := by
      rw [← cast_twoPow]
      exact_mod_cast canonical.bits
    have high := near.high
    have below : x < 2 ^ (e + 53) := by
      rw [zpow_add₀ two, show (53 : Int) = ((53 : Nat) : Int) from rfl, zpow_natCast]
      nlinarith
    have huge : (10 : ℚ) ^ (4 * 79) ≤ 10 ^ 401 := pow_le_pow_right₀ (by norm_num) (by decide)
    exact lt_of_lt_of_le below (greatest.trans ((two_zpow_le_ten_pow (by decide)).trans huge))

/-- A decimal near a positive canonical number is read as it. -/
theorem ofDecimal_of_near (negative : Bool) {digits : Nat} {exponent : Int}
    (canonical : Canonical m e)
    (pos : 0 < m) (near : Near m e (digits * 10 ^ exponent)) :
    ofDecimal negative digits exponent = .finite negative m e := by
  have ten : (10 : ℚ) ≠ 0 := by norm_num
  obtain ⟨tiny, huge⟩ := near.range canonical pos
  have some' : digits ≠ 0 := by
    rintro rfl
    rw [Nat.cast_zero, zero_mul] at tiny
    exact absurd tiny (not_lt.mpr (inv_nonneg.mpr (pow_nonneg (by norm_num) _)))
  have some'' : (1 : ℚ) ≤ digits := by exact_mod_cast Nat.one_le_iff_ne_zero.mpr some'
  have upper : ¬ 400 < exponent := by
    intro above
    have grows : (10 : ℚ) ^ ((401 : Nat) : Int) ≤ 10 ^ exponent :=
      zpow_le_zpow_right₀ (by norm_num) (by omega)
    rw [zpow_natCast] at grows
    exact absurd huge (not_lt.mpr (grows.trans
      (le_mul_of_one_le_left (zpow_nonneg (by norm_num) _) some'')))
  have lower : ¬ exponent < -(400 + (digits.log2 : Int)) := by
    intro below
    have short : (digits : ℚ) < 2 ^ (digits.log2 + 1) := by exact_mod_cast Nat.lt_log2_self
    have longer : (2 : ℚ) ^ (digits.log2 + 1) ≤ 10 ^ (digits.log2 + 1) :=
      pow_le_pow_left₀ (by norm_num) (by norm_num) _
    have shrinks : (10 : ℚ) ^ exponent ≤
      10 ^ (-((400 : Nat) : Int) - ((digits.log2 + 1 : Nat) : Int)) :=
      zpow_le_zpow_right₀ (by norm_num) (by omega)
    rw [zpow_sub₀ ten, zpow_neg, zpow_natCast, zpow_natCast, le_div_iff₀ (by positivity)] at shrinks
    have unit : (0 : ℚ) < 10 ^ exponent := zpow_pos (by norm_num) _
    refine absurd tiny (not_lt.mpr (le_trans ?_ shrinks))
    rw [mul_comm]
    exact mul_le_mul_of_nonneg_left (short.le.trans longer) unit.le
  rw [ofDecimal, if_neg some', if_neg upper, if_neg lower]
  split
  next up =>
    obtain ⟨k, rfl⟩ := Int.eq_ofNat_of_zero_le up
    refine ofRatio_of_near negative canonical
      (Nat.mul_pos (Nat.pos_of_ne_zero some') (tenPow_pos _))
      Nat.one_pos ?_
    rw [Int.toNat_natCast, Nat.cast_mul, cast_tenPow, Nat.cast_one, div_one]
    rwa [zpow_natCast] at near
  next down =>
    obtain ⟨k, same⟩ := Int.eq_ofNat_of_zero_le (show 0 ≤ -exponent by omega)
    refine ofRatio_of_near negative canonical (Nat.pos_of_ne_zero some') (tenPow_pos _) ?_
    rw [same, Int.toNat_natCast, cast_tenPow]
    rwa [show exponent = -(k : Int) by omega, zpow_neg, zpow_natCast, ← div_eq_mul_inv] at near

theorem isNan_carried (negative : Bool) (m : Nat) (e : Int) :
    (carried negative m e).isNan = false := by
  rw [carried]
  dsimp only
  generalize (if m = twoPow 53 then (twoPow 52, e + 1) else (m, e)) = result
  split <;> rfl

theorem isNan_ofRatio (negative : Bool) (num den : Nat) :
    (ofRatio negative num den).isNan = false := by
  rw [ofRatio]
  split
  next => rfl
  next => exact isNan_carried negative _ _

theorem isNan_ofDecimal (negative : Bool) (digits : Nat) (exponent : Int) :
    (ofDecimal negative digits exponent).isNan = false := by
  rw [ofDecimal]
  split
  · rfl
  · split
    · rfl
    · split
      · rfl
      · split <;> exact isNan_ofRatio negative _ _

end Binary64

end TestRoster
