import TestRoster.Number.Shortest
import TestRoster.Proofs.Number.Rounding

/-!
The shortest digits of a number lie near it.

The decimals that are tried on a grid are those around the number. On the grid of seventeen digits
one of them is near the number, since its steps are smaller than those of the numbers there; so the
search ends with a decimal that is rounded to the number.
-/
namespace TestRoster

namespace Decimal

open Binary64

variable {m : Nat} {e : Int}

/-- The numerators of the interval around a number stand over its denominator. -/
structure Around (i : Interval) (m : Nat) (e : Int) : Prop where
  den : 0 < i.den
  low : (i.low : ℚ) / i.den = (m - gap m e) * 2 ^ e
  value : (i.value : ℚ) / i.den = m * 2 ^ e
  high : (i.high : ℚ) / i.den = (m + 1 / 2) * 2 ^ e
  closed : i.closed = true ↔ m % 2 = 0

theorem around_ofBinary (pos : 0 < m) (e : Int) : Around (Interval.ofBinary m e) m e := by
  obtain ⟨quarters, named⟩ : ∃ k, k = if m = twoPow 52 ∧ leastExponent < e then 1 else 2 := ⟨_, rfl⟩
  have small : quarters ≤ 4 * m := by
    rw [named]
    split <;> omega
  have gapped : gap m e = quarters / 4 := by
    rw [gap, named]
    split <;> norm_num
  obtain ⟨unit, unit'⟩ : ∃ unit, unit = if 0 ≤ e then twoPow e.toNat else 1 := ⟨_, rfl⟩
  obtain ⟨den, den'⟩ : ∃ den, den = if 0 ≤ e then 4 else 4 * twoPow (-e).toNat := ⟨_, rfl⟩
  have opened : Interval.ofBinary m e =
      ⟨(4 * m - quarters) * unit, 4 * m * unit, (4 * m + 2) * unit, den, m % 2 == 0⟩ := by
    rw [named, unit', den']
    rfl
  have below : 0 < den := by
    rw [den']
    split
    · decide
    · exact Nat.mul_pos (by decide) (twoPow_pos _)
  have scale : (unit : ℚ) / den = 2 ^ e / 4 := by
    rw [unit', den', zpow_eq_div]
    split
    next up =>
      rw [cast_twoPow, Int.toNat_of_nonpos (show -e ≤ 0 by omega), pow_zero, div_one,
        Nat.cast_ofNat]
    next down =>
      rw [Nat.cast_mul, cast_twoPow, Int.toNat_of_nonpos (show e ≤ 0 by omega), pow_zero,
        Nat.cast_one,
        Nat.cast_ofNat, div_div, mul_comm]
  rw [opened]
  refine ⟨below, ?_, ?_, ?_, by simp⟩
  · rw [Nat.cast_mul, Nat.cast_sub small, mul_div_assoc, scale, gapped]
    push_cast
    ring
  · rw [Nat.cast_mul, mul_div_assoc, scale]
    push_cast
    ring
  · rw [Nat.cast_mul, mul_div_assoc, scale]
    push_cast
    ring

/-- A decimal lies in the interval if it is near the number. -/
theorem holds_iff {i : Interval} (around : Around i m e) (count : Nat) (grid : Int) :
    i.holds count grid = true ↔ Near m e (count * 10 ^ grid) := by
  have den : (0 : ℚ) < i.den := Nat.cast_pos.mpr around.den
  have scale : (0 : ℚ) < tenPow (-grid).toNat := Nat.cast_pos.mpr (tenPow_pos _)
  have place : (count * 10 ^ grid : ℚ) =
      (count * tenPow grid.toNat * i.den : ℕ) / tenPow (-grid).toNat / i.den := by
    rw [zpow_eq_div, ← cast_tenPow, ← cast_tenPow]
    push_cast
    field_simp
  have above (b : Nat) : (b : ℚ) / i.den ≤ count * 10 ^ grid ↔
      b * tenPow (-grid).toNat ≤ count * tenPow grid.toNat * i.den := by
    rw [place, div_le_div_iff_of_pos_right den, le_div_iff₀ scale]
    exact_mod_cast Iff.rfl
  have below (b : Nat) : (count * 10 ^ grid : ℚ) ≤ b / i.den ↔
      count * tenPow grid.toNat * i.den ≤ b * tenPow (-grid).toNat := by
    rw [place, div_le_div_iff_of_pos_right den, div_le_iff₀ scale]
    exact_mod_cast Iff.rfl
  have aboveLow := above i.low
  have belowLow := below i.low
  have aboveHigh := above i.high
  have belowHigh := below i.high
  rw [around.low] at aboveLow belowLow
  rw [around.high] at aboveHigh belowHigh
  rw [Interval.holds]
  by_cases even : m % 2 = 0
  · rw [if_pos (around.closed.mpr even), decide_eq_true_iff, ← aboveLow, ← belowHigh]
    exact ⟨fun ⟨low, high⟩ => ⟨low, high, fun _ => even⟩, fun near => ⟨near.low, near.high⟩⟩
  · rw [if_neg (fun closed => even (around.closed.mp closed)), decide_eq_true_iff, ← not_le,
      ← not_le,
      ← belowLow, ← aboveHigh]
    constructor
    · rintro ⟨low, high⟩
      refine ⟨(not_le.mp low).le, (not_le.mp high).le, ?_⟩
      rintro (same | same)
      · exact absurd same.le low
      · exact absurd same.ge high
    · intro near
      exact ⟨fun low => even (near.tie (.inl (le_antisymm low near.low))),
        fun high => even (near.tie (.inr (le_antisymm near.high high)))⟩

theorem holds_of_onGrid? {i : Interval} {grid : Int} {n : Nat} (found : i.onGrid? grid = some n) :
    i.holds n grid = true := by
  rw [Interval.onGrid?] at found
  split at found
  next below above =>
    split at found
    · cases found
      exact below
    · split at found
      · cases found
        exact above
      · split at found <;> cases found
        · exact below
        · exact above
  next below above => cases found; exact below
  next below above => cases found; exact above
  next => cases found

/-- The search ends with the first grid that has a decimal in the interval. -/
theorem search_of_onGrid? {i : Interval} {point : Int} {fuel count last : Nat}
    (enough : count ≤ last)
    (enough' : last < count + fuel) (found : (i.onGrid? (point - last)).isSome) :
    ∃ n grid, i.holds n grid = true ∧ i.search point count fuel =
      ⟨stripZeros (Nat.toDigits 10 n), grid + (Nat.toDigits 10 n).length⟩ := by
  induction fuel generalizing count with
  | zero => omega
  | succ fuel ih =>
      rw [Interval.search]
      cases here : i.onGrid? (point - count) with
      | some n => exact ⟨n, point - count, holds_of_onGrid? here, rfl⟩
      | none =>
          have later : count ≠ last := by
            rintro rfl
            rw [here] at found
            cases found
          exact ih (by omega) (by omega)

/-- On a fine grid one of the two decimals around a number is near it. -/
theorem near_around {grid : Int} {n : Nat} (canonical : Canonical m e)
    (fine : (10 : ℚ) ^ grid * 10 ^ 16 ≤ m * 2 ^ e) (below : (n : ℚ) * 10 ^ grid ≤ m * 2 ^ e)
    (above : m * 2 ^ e < ((n + 1 : Nat) : ℚ) * 10 ^ grid) :
    Near m e (n * 10 ^ grid) ∨ Near m e ((n + 1 : Nat) * 10 ^ grid) := by
  have unit : (0 : ℚ) < 2 ^ e := zpow_pos two_pos e
  have bits : (m : ℚ) ≤ 2 ^ 53 := by
    rw [← cast_twoPow]
    exact_mod_cast canonical.bits.le
  have strict {x : ℚ} (low : (m - gap m e) * 2 ^ e < x) (high : x < (m + 1 / 2) * 2 ^ e) :
      Near m e x :=
    ⟨low.le, high.le, fun tie => by rcases tie with same | same <;> linarith⟩
  push_cast at above ⊢
  rcases gap_cases m e with ⟨gapped, rfl, -⟩ | ⟨gapped, -⟩
  · rw [cast_twoPow] at *
    refine .inr (strict ?_ ?_)
    · rw [gapped]
      linarith
    · linarith
  · have step : (10 : ℚ) ^ grid * 10 ^ 16 ≤ 2 ^ 53 * 2 ^ e :=
      fine.trans (mul_le_mul_of_nonneg_right bits unit.le)
    rcases le_total (m * 2 ^ e - n * 10 ^ grid : ℚ) (10 ^ grid / 2) with near | far
    · refine .inl (strict ?_ ?_)
      · rw [gapped]
        linarith
      · linarith
    · refine .inr (strict ?_ ?_)
      · rw [gapped]
        linarith
      · linarith

/-- A division with a remainder, as fractions. -/
theorem div_bounds (num : Nat) {den : Nat} (pos : 0 < den) :
    ((num / den : ℕ) : ℚ) ≤ num / den ∧ (num : ℚ) / den < ((num / den + 1 : ℕ) : ℚ) := by
  have pos' : (0 : ℚ) < den := Nat.cast_pos.mpr pos
  constructor
  · rw [le_div_iff₀ pos']
    exact_mod_cast Nat.div_mul_le_self num den
  · rw [div_lt_iff₀ pos']
    exact_mod_cast Nat.lt_mul_of_div_lt (Nat.lt_succ_self _) pos

theorem onGrid?_isSome {i : Interval} (around : Around i m e) (canonical : Canonical m e)
    {grid : Int}
    (fine : (10 : ℚ) ^ grid * 10 ^ 16 ≤ m * 2 ^ e) : (i.onGrid? grid).isSome := by
  have ten : (0 : ℚ) < 10 ^ grid := zpow_pos (by norm_num) grid
  have den : 0 < i.den * tenPow grid.toNat := Nat.mul_pos around.den (tenPow_pos _)
  have scaled : ((i.value * tenPow (-grid).toNat : ℕ) : ℚ) / (i.den * tenPow grid.toNat : ℕ) =
      m * 2 ^ e / 10 ^ grid := by
    rw [← around.value, zpow_eq_div, ← cast_tenPow, ← cast_tenPow]
    have : (tenPow (-grid).toNat : ℚ) ≠ 0 := Nat.cast_ne_zero.mpr (tenPow_pos _).ne'
    push_cast
    field_simp
  obtain ⟨below, above⟩ := div_bounds (i.value * tenPow (-grid).toNat) den
  rw [scaled, le_div_iff₀ ten] at below
  rw [scaled, div_lt_iff₀ ten] at above
  have near := near_around canonical fine below above
  rw [← holds_iff around, ← holds_iff around] at near
  rw [Interval.onGrid?]
  split
  · split
    · rfl
    · split
      · rfl
      · split <;> rfl
  · rfl
  · rfl
  next no no' =>
    rw [no, no'] at near
    simp at near

/-- The point of a number is that of its digits. -/
theorem pointOf_le {num den : Nat} (pos : 0 < den) (large : (1 : ℚ) ≤ num / den * 10 ^ 340) :
    (10 : ℚ) ^ (pointOf num den - 1) ≤ num / den := by
  have ten : (10 : ℚ) ≠ 0 := by norm_num
  obtain ⟨below, above⟩ := div_bounds (num * tenPow 340) pos
  have scaled : ((num * tenPow 340 : ℕ) : ℚ) / den = num / den * 10 ^ 340 := by
    rw [Nat.cast_mul, cast_tenPow, mul_div_right_comm]
  rw [scaled] at below above
  obtain ⟨k, named⟩ : ∃ k, k = num * tenPow 340 / den := ⟨_, rfl⟩
  rw [← named] at below above
  have some' : 1 ≤ k := by
    have : (1 : ℚ) < ((k + 1 : ℕ) : ℚ) := lt_of_le_of_lt large above
    have : 1 < k + 1 := by exact_mod_cast this
    omega
  have digits : 10 ^ ((Nat.toDigits 10 k).length - 1) ≤ k := by
    rcases Nat.eq_zero_or_pos ((Nat.toDigits 10 k).length - 1) with short | long
    · rw [short]
      exact some'
    · refine Nat.le_of_not_lt fun less => ?_
      have := (Nat.length_toDigits_le_iff (by decide) long).mpr less
      omega
  have length : 0 < (Nat.toDigits 10 k).length := Nat.length_toDigits_pos
  have power : (10 : ℚ) ^ (pointOf num den - 1) * 10 ^ 340 =
      ((10 ^ ((Nat.toDigits 10 k).length - 1) : ℕ) : ℚ) := by
    have same : pointOf num den - 1 =
        (((Nat.toDigits 10 k).length - 1 : ℕ) : ℤ) - ((340 : ℕ) : ℤ) := by
      rw [pointOf, ← named]
      omega
    rw [same, zpow_sub₀ ten, zpow_natCast, zpow_natCast, div_mul_cancel₀ _ (pow_ne_zero _ ten),
      Nat.cast_pow, Nat.cast_ofNat]
  have less : (10 : ℚ) ^ (pointOf num den - 1) * 10 ^ 340 ≤ num / den * 10 ^ 340 := by
    rw [power]
    exact (Nat.cast_le.mpr digits).trans below
  exact le_of_mul_le_mul_right less (pow_pos (by norm_num) 340)

/-- The shortest digits of a number are those of a decimal near it. -/
theorem shortest_near (canonical : Canonical m e) (pos : 0 < m) :
    ∃ (n : Nat) (grid : Int), 0 < n ∧ Near m e (n * 10 ^ grid) ∧
      shortest m e = ⟨stripZeros (Nat.toDigits 10 n), grid + (Nat.toDigits 10 n).length⟩ := by
  have ten : (10 : ℚ) ≠ 0 := by norm_num
  have around := around_ofBinary pos e
  have unit : (0 : ℚ) < 2 ^ e := zpow_pos two_pos e
  have some' : (1 : ℚ) ≤ m := by exact_mod_cast pos
  have large : (1 : ℚ) ≤ (Interval.ofBinary m e).value /
    (Interval.ofBinary m e).den * 10 ^ 340 := by
    have least : (2 : ℚ) ^ (-1074 : Int) ≤ 2 ^ e := zpow_le_zpow_right₀ one_le_two canonical.least
    have digits : (2 : ℚ) ^ (1074 : Int) ≤ 10 ^ 340 :=
      (two_zpow_le_ten_pow (n := 83) (by decide)).trans
        (pow_le_pow_right₀ (by norm_num) (by decide))
    have one : (1 : ℚ) ≤ 2 ^ (-1074 : Int) * 10 ^ 340 := by
      rw [zpow_neg]
      exact (one_le_inv_mul₀ (zpow_pos two_pos _)).mpr digits
    rw [around.value]
    refine one.trans (mul_le_mul_of_nonneg_right (least.trans ?_) (pow_nonneg (by norm_num) _))
    exact le_mul_of_one_le_left unit.le some'
  have point := pointOf_le around.den large
  rw [around.value] at point
  -- Seventeen digits are always enough, so the search ends.
  have fine : (10 : ℚ) ^ (pointOf (Interval.ofBinary m e).value (Interval.ofBinary m e).den -
      ((17 : ℕ) : Int)) * 10 ^ 16 ≤ m * 2 ^ e := by
    rw [← zpow_natCast, ← zpow_add₀ ten, show ∀ k : Int, k - (17 : ℕ) + (16 : ℕ) = k - 1 by omega]
    exact point
  have enough : 17 < 1 + 17 := by decide
  obtain ⟨n, grid, held, found⟩ :=
    search_of_onGrid? (by decide : 1 ≤ 17) enough (onGrid?_isSome around canonical fine)
  have near := (holds_iff around n grid).mp held
  refine ⟨n, grid, Nat.pos_of_ne_zero ?_, near, found⟩
  rintro rfl
  have low := near.low
  have gapped := gap_le m e
  rw [Nat.cast_zero, zero_mul] at low
  exact absurd low (not_le.mpr (mul_pos (by linarith) unit))

end Decimal

end TestRoster
