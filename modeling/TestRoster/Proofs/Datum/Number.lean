import TestRoster.Datum.Writer
import TestRoster.Proofs.Datum.Numeral
import TestRoster.Proofs.Number.Shortest

/-!
Numbers that are written are read back.

An integer is read from its digits, if they are not too many. A binary number is written with the
shortest digits of a decimal near it, in one of four forms; each form is read as this decimal, which
is rounded to the number.
-/
namespace TestRoster

namespace Json

variable {cs rest tail digits fractional : List Char} {c : Char} {negative : Bool}

theorem isDigit_of_mem_toDigits {n : Nat} (member : c ∈ Nat.toDigits 10 n) : isDigit c = true :=
  Nat.isDigit_of_mem_toDigits (by decide) (by decide) member

theorem isDigit_of_mem_zeros {n : Nat} (member : c ∈ Binary64.zeros n) : isDigit c = true := by
  rw [(List.mem_replicate.mp member).2]
  rfl

theorem number_eq (digits : List Char) : number digits = Nat.ofDigitChars 10 digits 0 := by
  rw [number, Nat.ofDigitChars_eq_foldl]
  congr 1
  funext n c
  rw [Nat.mul_comm]
  rfl

theorem number_toDigits (n : Nat) : number (Nat.toDigits 10 n) = n := by
  rw [number_eq, Nat.ofDigitChars_ten_toDigits]

theorem number_zeros_append (n : Nat) (digits : List Char) :
    number (Binary64.zeros n ++ digits) = number digits := by
  rw [number_eq, number_eq, Nat.ofDigitChars_append, Binary64.zeros,
    Nat.ofDigitChars_replicate_zero,
    Nat.mul_zero]

theorem number_append_zeros (digits : List Char) (n : Nat) :
    number (digits ++ Binary64.zeros n) = 10 ^ n * number digits := by
  rw [number_eq, number_eq, Nat.ofDigitChars_append, Binary64.zeros,
    Nat.ofDigitChars_replicate_zero]

def Breaks (cs : List Char) : Prop :=
  ∀ c tail, cs = c :: tail → isDigit c = false

theorem Settled.breaks (settled : Settled cs) : Breaks cs :=
  fun c tail same => (settled c tail same).digit

theorem breaks_cons (other : isDigit c = false) (cs : List Char) : Breaks (c :: cs) := by
  rintro _ _ ⟨⟩
  exact other

theorem span_digits (all : ∀ c ∈ digits, isDigit c = true) (breaks : Breaks rest) :
    (digits ++ rest).takeWhile isDigit = digits ∧ (digits ++ rest).dropWhile isDigit = rest := by
  rw [List.takeWhile_append_of_pos all, List.dropWhile_append_of_pos all]
  cases rest with
  | nil => simp
  | cons c tail =>
      have other := breaks c tail rfl
      rw [List.takeWhile_cons_of_neg (by simp [other]),
        List.dropWhile_cons_of_neg (by simp [other])]
      simp

/-- The digits before the fraction of a numeral: a zero alone, or digits that start with another
one. -/
structure Leading (digits : List Char) : Prop where
  all : ∀ c ∈ digits, isDigit c = true
  some' : digits ≠ []
  first : digits = ['0'] ∨ digits.head? ≠ some '0'

theorem whole_digits (leading : Leading digits) (breaks : Breaks rest) :
    whole (digits ++ rest) = digits := by
  rcases leading.first with rfl | other
  · rfl
  · obtain ⟨c, tail, rfl⟩ := List.exists_cons_of_ne_nil leading.some'
    have plain : whole (c :: tail ++ rest) = (c :: tail ++ rest).takeWhile isDigit := by
      rw [List.cons_append, whole]
      rintro _ ⟨⟩
      exact other rfl
    rw [plain, (span_digits leading.all breaks).1]

theorem unsignedNumeral?_digits (leading : Leading digits) (breaks : Breaks rest) :
    unsignedNumeral? negative (digits ++ rest) = numeralFrom negative digits rest := by
  rw [unsignedNumeral?_eq, whole_digits leading breaks, List.drop_left]
  exact if_neg (by simpa using leading.some')

theorem fraction_none (point : ∀ tail, cs ≠ '.' :: tail) : fraction cs = ([], cs) := by
  rw [fraction]
  exact fun tail same => point tail same

theorem fraction_digits (all : ∀ c ∈ fractional, isDigit c = true) (some' : fractional ≠ [])
    (breaks : Breaks rest) : fraction ('.' :: (fractional ++ rest)) = (fractional, rest) := by
  obtain ⟨taken, dropped⟩ := span_digits all breaks
  simp only [fraction, taken, dropped]
  exact if_neg (by simpa using some')

theorem Settled.exponent? (settled : Settled cs) : Json.exponent? cs = none := by
  cases cs with
  | nil => rfl
  | cons c tail => rw [exponent?_cons, if_neg (settled c tail rfl).exponent]

theorem Settled.fraction (settled : Settled cs) : Json.fraction cs = ([], cs) :=
  fraction_none fun tail same => (settled '.' tail same).point rfl

theorem exponent?_digits (all : ∀ c ∈ digits, isDigit c = true) (some' : digits ≠ [])
    (breaks : Breaks rest) (down : Bool) :
    exponent? ('e' :: (if down then '-' else '+') :: (digits ++ rest)) =
      some (if down then -(number digits : Int) else number digits, rest) := by
  obtain ⟨taken, dropped⟩ := span_digits all breaks
  rw [exponent?_cons]
  cases down <;> simp [signed, taken, dropped, some']

variable (negative)

theorem read_int (leading : Leading digits) (small : digits.length ≤ numeralLimit)
    (settled : Settled rest) :
    unsignedNumeral? negative (digits ++ rest) =
      some (.ok (.int (if negative then -(number digits : Int) else number digits), rest)) := by
  rw [unsignedNumeral?_digits leading settled.breaks,
    numeralFrom_int _ _ settled.fraction settled.exponent?, if_neg (Nat.not_lt.mpr small)]

theorem read_fraction (leading : Leading digits) (all : ∀ c ∈ fractional, isDigit c = true)
    (some' : fractional ≠ []) (settled : Settled rest) :
    unsignedNumeral? negative (digits ++ '.' :: (fractional ++ rest)) =
      some (.ok (.float (Binary64.ofDecimal negative (number (digits ++ fractional))
        (-fractional.length)), rest)) := by
  rw [unsignedNumeral?_digits leading (breaks_cons rfl _),
    numeralFrom_float _ _ (fraction_digits all some' settled.breaks) (.inl some'),
      settled.exponent?]
  simp

/-- A numeral with an exponent, with or without a fraction. -/
theorem read_scaled (leading : Leading digits) (all : ∀ c ∈ fractional, isDigit c = true)
    {exponent : List Char} (all' : ∀ c ∈ exponent, isDigit c = true) (some' : exponent ≠ [])
    (down : Bool) (settled : Settled rest) :
    unsignedNumeral? negative (digits ++ ((if fractional = [] then [] else '.' :: fractional) ++
        'e' :: (if down then '-' else '+') :: (exponent ++ rest))) =
      some (.ok (.float (Binary64.ofDecimal negative (number (digits ++ fractional))
        ((if down then -(number exponent : Int) else number exponent) - fractional.length)),
          rest)) := by
  have scaled := exponent?_digits all' some' settled.breaks down
  have parts : fraction ((if fractional = [] then [] else '.' :: fractional) ++
      'e' :: (if down then '-' else '+') :: (exponent ++ rest)) =
        (fractional, 'e' :: (if down then '-' else '+') :: (exponent ++ rest)) := by
    split
    next none =>
      rw [none, List.nil_append]
      exact fraction_none (by simp)
    next some' => exact fraction_digits all some' (breaks_cons rfl _)
  have breaks : Breaks ((if fractional = [] then [] else '.' :: fractional) ++
      'e' :: (if down then '-' else '+') :: (exponent ++ rest)) := by
    split <;> exact breaks_cons rfl _
  rw [unsignedNumeral?_digits leading breaks,
    numeralFrom_float _ _ parts (.inr (by rw [scaled]; exact Option.some_ne_none _)), scaled]
  rfl

theorem digitChar_ne_zero : ∀ n < 10, 0 < n → [Nat.digitChar n].head? ≠ some '0' := by
  decide

/-- No positive number starts with a zero. -/
theorem toDigits_head (n : Nat) (pos : 0 < n) : (Nat.toDigits 10 n).head? ≠ some '0' := by
  induction n using Nat.strongRecOn with
  | ind n ih =>
      by_cases one : n < 10
      · rw [Nat.toDigits_of_lt_base one]
        exact digitChar_ne_zero n one pos
      · rw [Nat.toDigits_of_base_le (by decide) (Nat.le_of_not_lt one), List.head?_append_of_ne_nil]
        · exact ih (n / 10) (by omega) (by omega)
        · exact Nat.toDigits_ne_nil

theorem leading_toDigits (n : Nat) : Leading (Nat.toDigits 10 n) where
  all := fun _ => isDigit_of_mem_toDigits
  some' := Nat.toDigits_ne_nil
  first := by
    rcases Nat.eq_zero_or_pos n with rfl | pos
    · exact .inl (Nat.toDigits_zero 10)
    · exact .inr (toDigits_head n pos)

/-- Digits without the zeros at their end. -/
theorem stripZeros_append (digits : List Char) :
    ∃ n, Decimal.stripZeros digits ++ Binary64.zeros n = digits := by
  have zeros : digits.reverse.takeWhile (· == '0') =
      Binary64.zeros (digits.reverse.takeWhile (· == '0')).length :=
    List.eq_replicate_iff.mpr ⟨rfl, fun c member => by
      simpa using List.all_eq_true.mp List.all_takeWhile c member⟩
  refine ⟨(digits.reverse.takeWhile (· == '0')).length, ?_⟩
  rw [Binary64.zeros, ← List.reverse_replicate, ← Binary64.zeros, ← zeros, Decimal.stripZeros,
    ← List.reverse_append, List.takeWhile_append_dropWhile, List.reverse_reverse]

/-- The digits of a decimal stand for a fraction, with its point where it is. -/
structure Spells (d : Decimal) (x : ℚ) : Prop where
  all : ∀ c ∈ d.digits, isDigit c = true
  first : ∃ c cs, d.digits = c :: cs ∧ c ≠ '0'
  value : (number d.digits : ℚ) * 10 ^ (d.point - d.digits.length) = x

/-- A count on a grid, without the zeros at its end. -/
theorem spells_stripZeros {n : Nat} (pos : 0 < n) (grid : Int) :
    Spells ⟨Decimal.stripZeros (Nat.toDigits 10 n), grid + (Nat.toDigits 10 n).length⟩
      (n * 10 ^ grid) := by
  obtain ⟨k, digits⟩ := stripZeros_append (Nat.toDigits 10 n)
  have value := number_append_zeros (Decimal.stripZeros (Nat.toDigits 10 n)) k
  rw [digits, number_toDigits] at value
  have length := congrArg List.length digits
  rw [List.length_append, Binary64.zeros, List.length_replicate] at length
  have some' : Decimal.stripZeros (Nat.toDigits 10 n) ≠ [] := by
    intro none
    rw [none] at value
    have : n = 0 := value
    omega
  obtain ⟨c, cs, starts⟩ := List.exists_cons_of_ne_nil some'
  refine ⟨fun c member => ?_, ⟨c, cs, starts, ?_⟩, ?_⟩
  · exact isDigit_of_mem_toDigits (digits ▸ List.mem_append_left _ member)
  · rintro rfl
    refine toDigits_head n pos ?_
    rw [← digits, starts]
    rfl
  · have place : grid + (Nat.toDigits 10 n).length -
        (Decimal.stripZeros (Nat.toDigits 10 n)).length = (k : Int) + grid := by omega
    rw [place, zpow_add₀ (by norm_num), zpow_natCast]
    nth_rewrite 3 [value]
    push_cast
    ring

theorem digit_zero : isDigit '0' = true :=
  rfl

theorem leading_zero : Leading ['0'] :=
  ⟨List.forall_mem_singleton.mpr digit_zero, List.cons_ne_nil _ _, .inl rfl⟩

theorem leading_cons (all : ∀ b ∈ c :: cs, isDigit b = true) (first : c ≠ '0') :
    Leading (c :: cs) :=
  ⟨all, List.cons_ne_nil c cs, .inr (by simpa using first)⟩

section Forms

variable {point : Int} {x : ℚ}

/-- One digit before the point, and an exponent. -/
theorem read_scientific (spells : Spells ⟨c :: cs, point⟩ x) (first : c ≠ '0')
    (far : point < -3 ∨ 16 < point) (settled : Settled rest) :
    ∃ (n : Nat) (e : Int), unsignedNumeral? negative
      (Binary64.decimalText ⟨c :: cs, point⟩ ++ rest) =
      some (.ok (.float (Binary64.ofDecimal negative n e), rest)) ∧ (n : ℚ) * 10 ^ e = x := by
  obtain ⟨digit, others⟩ := List.forall_mem_cons.mp spells.all
  obtain ⟨exponent, magnitude⟩ : ∃ exponent, exponent =
      Binary64.zeros (2 - (Nat.toDigits 10 (point - 1).natAbs).length) ++
        Nat.toDigits 10 (point - 1).natAbs := ⟨_, rfl⟩
  have all : ∀ b ∈ exponent, isDigit b = true := by
    intro b member
    rw [magnitude] at member
    exact (List.mem_append.mp member).elim isDigit_of_mem_zeros isDigit_of_mem_toDigits
  have some' : exponent ≠ [] := by
    rw [magnitude]
    exact List.append_ne_nil_of_right_ne_nil _ Nat.toDigits_ne_nil
  have written : Binary64.decimalText ⟨c :: cs, point⟩ ++ rest =
      [c] ++ ((if cs = [] then [] else '.' :: cs) ++
        'e' :: (if decide (point - 1 < 0) then '-' else '+') :: (exponent ++ rest)) := by
    rw [Binary64.decimalText, if_pos far, magnitude]
    cases cs <;> simp
  have worth : (if decide (point - 1 < 0) then -(number exponent : Int) else number exponent) =
      point - 1 := by
    rw [magnitude, number_zeros_append, number_toDigits]
    split
    next down =>
      have := of_decide_eq_true down
      omega
    next up =>
      have := of_decide_eq_false (Bool.eq_false_iff.mpr up)
      omega
  have read := read_scaled negative (leading_cons (List.forall_mem_singleton.mpr digit) first)
    others all some' (decide (point - 1 < 0)) settled
  rw [worth] at read
  refine ⟨_, _, written ▸ read, ?_⟩
  rw [← spells.value, List.length_cons, List.singleton_append]
  congr 2
  push_cast
  ring

/-- A zero before the point. -/
theorem read_below_one (spells : Spells ⟨c :: cs, point⟩ x) (near : ¬ (point < -3 ∨ 16 < point))
    (small : point ≤ 0) (settled : Settled rest) :
    ∃ (n : Nat) (e : Int), unsignedNumeral? negative
      (Binary64.decimalText ⟨c :: cs, point⟩ ++ rest) =
      some (.ok (.float (Binary64.ofDecimal negative n e), rest)) ∧ (n : ℚ) * 10 ^ e = x := by
  have written : Binary64.decimalText ⟨c :: cs, point⟩ ++ rest =
      ['0'] ++ '.' :: ((Binary64.zeros (-point).toNat ++ (c :: cs)) ++ rest) := by
    rw [Binary64.decimalText, if_neg near, if_pos small]
    simp
  have all : ∀ b ∈ Binary64.zeros (-point).toNat ++ (c :: cs), isDigit b = true := fun b member =>
    (List.mem_append.mp member).elim isDigit_of_mem_zeros (spells.all b)
  have read := read_fraction negative leading_zero all (by simp) settled
  refine ⟨_, _, written ▸ read, ?_⟩
  have digits : number (['0'] ++ (Binary64.zeros (-point).toNat ++ (c :: cs))) =
    number (c :: cs) := by
    rw [← number_zeros_append 1, ← number_zeros_append (-point).toNat (c :: cs)]
    rfl
  rw [digits, ← spells.value]
  congr 2
  rw [List.length_append, Binary64.zeros, List.length_replicate]
  push_cast
  omega

/-- Zeros up to the point. -/
theorem read_whole (spells : Spells ⟨c :: cs, point⟩ x) (first : c ≠ '0')
    (near : ¬ (point < -3 ∨ 16 < point)) (large : ¬ point ≤ 0)
    (short : (c :: cs).length ≤ point.toNat) (settled : Settled rest) :
    ∃ (n : Nat) (e : Int), unsignedNumeral? negative
      (Binary64.decimalText ⟨c :: cs, point⟩ ++ rest) =
      some (.ok (.float (Binary64.ofDecimal negative n e), rest)) ∧ (n : ℚ) * 10 ^ e = x := by
  obtain ⟨k, filled⟩ : ∃ k, k = point.toNat - (c :: cs).length := ⟨_, rfl⟩
  have written : Binary64.decimalText ⟨c :: cs, point⟩ ++ rest =
      (c :: (cs ++ Binary64.zeros k)) ++ '.' :: (['0'] ++ rest) := by
    rw [Binary64.decimalText, if_neg near, if_neg large, filled]
    dsimp only
    rw [if_pos short]
    simp
  have all : ∀ b ∈ c :: (cs ++ Binary64.zeros k), isDigit b = true := by
    rw [← List.cons_append]
    exact fun b member => (List.mem_append.mp member).elim (spells.all b) isDigit_of_mem_zeros
  have read := read_fraction negative (leading_cons all first)
    (List.forall_mem_singleton.mpr digit_zero) (by simp) settled
  refine ⟨_, _, written ▸ read, ?_⟩
  have digits : number (c :: (cs ++ Binary64.zeros k) ++ ['0']) =
    10 ^ (k + 1) * number (c :: cs) := by
    rw [← number_append_zeros, Binary64.zeros, Binary64.zeros, List.replicate_succ']
    simp
  have place : point - ((c :: cs).length : Int) =
    ((k + 1 : ℕ) : Int) + -((['0'].length : ℕ) : Int) := by
    rw [show ['0'].length = 1 from rfl]
    omega
  have value := spells.value
  dsimp only at value
  rw [digits, ← value, place, zpow_add₀ (by norm_num), zpow_natCast]
  push_cast
  ring

/-- The point among the digits. -/
theorem read_mixed (spells : Spells ⟨c :: cs, point⟩ x) (first : c ≠ '0')
    (near : ¬ (point < -3 ∨ 16 < point)) (large : ¬ point ≤ 0)
    (long : ¬ (c :: cs).length ≤ point.toNat) (settled : Settled rest) :
    ∃ (n : Nat) (e : Int), unsignedNumeral? negative
      (Binary64.decimalText ⟨c :: cs, point⟩ ++ rest) =
      some (.ok (.float (Binary64.ofDecimal negative n e), rest)) ∧ (n : ℚ) * 10 ^ e = x := by
  obtain ⟨k, before⟩ : ∃ k, point.toNat = k + 1 := ⟨point.toNat - 1, by omega⟩
  have written : Binary64.decimalText ⟨c :: cs, point⟩ ++ rest =
      (c :: cs.take k) ++ '.' :: (cs.drop k ++ rest) := by
    rw [Binary64.decimalText, if_neg near, if_neg large]
    dsimp only
    rw [if_neg long, before]
    simp
  obtain ⟨digit, others⟩ := List.forall_mem_cons.mp spells.all
  have all : ∀ b ∈ c :: cs.take k, isDigit b = true :=
    List.forall_mem_cons.mpr ⟨digit, fun b member => others b (List.mem_of_mem_take member)⟩
  have some' : cs.drop k ≠ [] := by
    rw [before, List.length_cons] at long
    exact List.drop_eq_nil_iff.not.mpr (by omega)
  have read := read_fraction negative (leading_cons all first)
    (fun b member => others b (List.mem_of_mem_drop member)) some' settled
  refine ⟨_, _, written ▸ read, ?_⟩
  have place : point - ((c :: cs).length : Int) = -((cs.drop k).length : Int) := by
    rw [before, List.length_cons] at long
    rw [List.length_drop, List.length_cons]
    omega
  have value := spells.value
  dsimp only at value
  rw [← value, place, List.cons_append, List.take_append_drop]

end Forms

theorem read_decimal {d : Decimal} {x : ℚ} (spells : Spells d x) (settled : Settled rest) :
    ∃ (n : Nat) (e : Int), unsignedNumeral? negative (Binary64.decimalText d ++ rest) =
      some (.ok (.float (Binary64.ofDecimal negative n e), rest)) ∧ (n : ℚ) * 10 ^ e = x := by
  obtain ⟨c, cs, digits, first⟩ := spells.first
  obtain ⟨_, point⟩ := d
  cases digits
  by_cases far : point < -3 ∨ 16 < point
  · exact read_scientific negative spells first far settled
  · by_cases small : point ≤ 0
    · exact read_below_one negative spells far small settled
    · by_cases short : (c :: cs).length ≤ point.toNat
      · exact read_whole negative spells first far small short settled
      · exact read_mixed negative spells first far small short settled

/-- What a number without its sign is written as. -/
def magnitudeText (m : Nat) (e : Int) : List Char :=
  if m = 0 then ['0', '.', '0'] else Binary64.decimalText (Decimal.shortest m e)

theorem read_magnitude {m : Nat} {e : Int} (canonical : Binary64.Canonical m e)
    (settled : Settled rest) :
    unsignedNumeral? negative (magnitudeText m e ++ rest) =
      some (.ok (.float (.finite negative m e), rest)) := by
  rw [magnitudeText]
  split
  next zero =>
    subst zero
    have least : e = Binary64.leastExponent := canonical.full.resolve_left (by decide)
    have read := read_fraction negative leading_zero (List.forall_mem_singleton.mpr digit_zero)
      (by simp) settled
    rw [least]
    exact read
  next some' =>
    have pos : 0 < m := Nat.pos_of_ne_zero some'
    obtain ⟨n, grid, pos', near, digits⟩ := Decimal.shortest_near canonical pos
    rw [digits]
    obtain ⟨k, place, read, value⟩ := read_decimal negative (spells_stripZeros pos' grid)
      settled
    rw [← value] at near
    rw [read, Binary64.ofDecimal_of_near negative canonical pos near]

theorem toList_numberText (negative : Bool) (m : Nat) (e : Int) :
    (numberText (.finite negative m e)).toList =
      if negative then '-' :: magnitudeText m e else magnitudeText m e := by
  rw [numberText, Binary64.text, magnitudeText, String.toList_ofList]

theorem toList_toString (n : Int) :
    (toString n).toList =
      if n < 0 then '-' :: Nat.toDigits 10 n.natAbs else Nat.toDigits 10 n.natAbs := by
  rw [Int.toString_eq_repr, Int.repr_eq_if]
  split
  next up =>
    rw [if_neg (Int.not_lt.mpr up), Nat.toList_repr, show n.toNat = n.natAbs by omega]
  next down =>
    rw [if_pos (Int.not_le.mp down), String.toList_append, Nat.toList_repr,
      show (-n).toNat = n.natAbs by omega]
    rfl

theorem numeral?_minus (cs : List Char) : numeral? ('-' :: cs) = unsignedNumeral? true cs :=
  rfl

/-- A numeral without a sign is a numeral. -/
theorem numeral?_of_unsigned {r : Except Stop (Datum × List Char)}
    (read : unsignedNumeral? false cs = some r) : numeral? cs = some r := by
  obtain ⟨d, tail, rfl, digit⟩ := digit_of_unsignedNumeral? read
  rw [numeral?]
  · exact read
  · rintro _ ⟨⟩
    cases digit

theorem value_numeral {r : Datum × List Char} (read : numeral? cs = some (.ok r)) (fuel : Nat) :
    value (fuel + 1) cs = .ok r := by
  have word : word? cs = none := by
    have none := word?_numeral read []
    rwa [List.append_nil] at none
  obtain ⟨c, tail, rfl, solid⟩ : ∃ c tail, cs = c :: tail ∧ (c = '-' ∨ isDigit c = true) := by
    rw [numeral?.eq_def] at read
    split at read
    next tail => exact ⟨'-', tail, rfl, .inl rfl⟩
    next =>
      obtain ⟨d, tail, rfl, digit⟩ := digit_of_unsignedNumeral? read
      exact ⟨d, tail, rfl, .inr digit⟩
  have other : ∀ d, d ≠ '-' → isDigit d = false → c ≠ d := by
    rintro d minus plain rfl
    rcases solid with same | digit
    · exact minus same
    · rw [plain] at digit
      cases digit
  rw [value_other fuel (other '"' (by decide) rfl) (other '[' (by decide) rfl)
    (other '\x7b' (by decide) rfl), word, read]
  rfl

/-- An integer of not too many digits is read back. -/
theorem value_int {n : Int} (small : n.natAbs < 10 ^ numeralLimit) (settled : Settled rest)
    (fuel : Nat) : value (fuel + 1) ((toString n).toList ++ rest) = .ok (.int n, rest) := by
  have short : (Nat.toDigits 10 n.natAbs).length ≤ numeralLimit :=
    (Nat.length_toDigits_le_iff (by decide) (by decide)).mpr small
  have read (negative : Bool) := read_int negative (leading_toDigits n.natAbs) short settled
  refine value_numeral ?_ fuel
  rw [toList_toString]
  split
  next down =>
    have signed : -(n.natAbs : Int) = n := by omega
    have read := read true
    rw [number_toDigits, if_pos rfl, signed] at read
    exact read
  next up =>
    have signed : (n.natAbs : Int) = n := by omega
    have read := read false
    rw [number_toDigits, if_neg Bool.false_ne_true, signed] at read
    exact numeral?_of_unsigned read

/-- A canonical number is read back. -/
theorem value_float {x : Binary64} (canonical : x.IsCanonical) (settled : Settled rest)
    (fuel : Nat) :
    value (fuel + 1) ((numberText x).toList ++ rest) = .ok (.float x, rest) := by
  have word {w : List Char × Datum} (member : w ∈ words) {c : Char} {tail : List Char}
      (starts : w.1 = c :: tail) (quote : c ≠ '"') (list : c ≠ '[') (dict : c ≠ '\x7b') :
      value (fuel + 1) (w.1 ++ rest) = .ok (w.2, rest) := by
    have read := word?_of_mem member rest
    rw [starts, List.cons_append] at read ⊢
    rw [value_other fuel quote list dict, read]
  cases x with
  | finite negative m e =>
      rw [toList_numberText]
      cases negative with
      | false =>
        exact value_numeral (numeral?_of_unsigned (read_magnitude false canonical settled)) fuel
      | true =>
          refine value_numeral ?_ fuel
          rw [if_pos rfl, List.cons_append, numeral?_minus]
          exact read_magnitude true canonical settled
  | infinite negative =>
      cases negative with
      | false =>
          exact word (w := ("Infinity".toList, .float (.infinite false))) (by simp [words]) rfl
            (by decide) (by decide) (by decide)
      | true =>
          exact word (w := ("-Infinity".toList, .float (.infinite true))) (by simp [words]) rfl
            (by decide) (by decide) (by decide)
  | nan =>
      exact word (w := ("NaN".toList, .float .nan)) (by simp [words]) rfl (by decide) (by decide)
        (by decide)

theorem toString_starts (n : Int) :
    ∃ c cs, (toString n).toList = c :: cs ∧ (c = '-' ∨ isDigit c = true) := by
  rw [toList_toString]
  split
  next down => exact ⟨'-', _, rfl, .inl rfl⟩
  next up =>
    obtain ⟨c, cs, digits⟩ :=
      List.exists_cons_of_ne_nil (Nat.toDigits_ne_nil (n := n.natAbs) (b := 10))
    exact ⟨c, cs, digits, .inr (isDigit_of_mem_toDigits (digits ▸ List.mem_cons_self))⟩

theorem magnitudeText_starts {m : Nat} {e : Int} (canonical : Binary64.Canonical m e) :
    ∃ c cs, magnitudeText m e = c :: cs ∧ isDigit c = true := by
  have read := read_magnitude false canonical settled_nil
  rw [List.append_nil] at read
  exact digit_of_unsignedNumeral? read

theorem numberText_starts {x : Binary64} (canonical : x.IsCanonical) :
    ∃ c cs, (numberText x).toList = c :: cs ∧ (c = 'I' ∨ c = 'N' ∨ c = '-' ∨ isDigit c = true) := by
  cases x with
  | finite negative m e =>
      rw [toList_numberText]
      cases negative with
      | false =>
          obtain ⟨c, cs, starts, digit⟩ := magnitudeText_starts canonical
          exact ⟨c, cs, starts, .inr (.inr (.inr digit))⟩
      | true => exact ⟨'-', _, rfl, .inr (.inr (.inl rfl))⟩
  | infinite negative =>
      cases negative with
      | false => exact ⟨'I', _, rfl, .inl rfl⟩
      | true => exact ⟨'-', _, rfl, .inr (.inr (.inl rfl))⟩
  | nan => exact ⟨'N', _, rfl, .inr (.inl rfl)⟩

theorem visible_digit (digit : isDigit c = true) : 0x20 ≤ c.toNat := by
  rw [isDigit, Bool.and_eq_true, decide_eq_true_iff, decide_eq_true_iff] at digit
  have low : '0'.toNat ≤ c.toNat := digit.1
  exact Nat.le_trans (by decide) low

theorem visible_toString (n : Int) : ∀ c ∈ (toString n).toList, 0x20 ≤ c.toNat := by
  have digits : ∀ c ∈ Nat.toDigits 10 n.natAbs, 0x20 ≤ c.toNat := fun c member =>
    visible_digit (isDigit_of_mem_toDigits member)
  rw [toList_toString]
  split
  · exact List.forall_mem_cons.mpr ⟨by decide, digits⟩
  · exact digits

theorem visible_decimalText {d : Decimal} (all : ∀ c ∈ d.digits, isDigit c = true) :
    ∀ c ∈ Binary64.decimalText d, 0x20 ≤ c.toNat := by
  have digits : ∀ c ∈ d.digits, 0x20 ≤ c.toNat := fun c member => visible_digit (all c member)
  have zeros : ∀ n, ∀ c ∈ Binary64.zeros n, 0x20 ≤ c.toNat := fun n c member =>
    visible_digit (isDigit_of_mem_zeros member)
  have exponent : ∀ n, ∀ c ∈ Nat.toDigits 10 n, 0x20 ≤ c.toNat := fun n c member =>
    visible_digit (isDigit_of_mem_toDigits member)
  have front : ∀ n, ∀ c ∈ d.digits.take n, 0x20 ≤ c.toNat := fun n c member =>
    digits c (List.mem_of_mem_take member)
  have back : ∀ n, ∀ c ∈ d.digits.drop n, 0x20 ≤ c.toNat := fun n c member =>
    digits c (List.mem_of_mem_drop member)
  have none : ∀ c ∈ ([] : List Char), 0x20 ≤ c.toNat := by simp
  rw [Binary64.decimalText]
  split
  · simp only [List.forall_mem_append, List.forall_mem_cons]
    refine ⟨⟨⟨⟨front 1, ?_⟩, by decide, ?_, none⟩, zeros _⟩, exponent _⟩
    · split
      · exact none
      · rw [← List.drop_one]
        exact List.forall_mem_cons.mpr ⟨by decide, back 1⟩
    · split <;> decide
  · split
    · simp only [List.forall_mem_append, List.forall_mem_cons, List.cons_append]
      exact ⟨by decide, by decide, zeros _, digits⟩
    · dsimp only
      split
      · simp only [List.forall_mem_append, List.forall_mem_cons]
        exact ⟨⟨digits, zeros _⟩, by decide, by decide, none⟩
      · simp only [List.forall_mem_append, List.forall_mem_cons]
        exact ⟨front _, by decide, back _⟩

theorem visible_of_all {cs : List Char} (all : cs.all (fun c => decide (0x20 ≤ c.toNat)) = true) :
    ∀ c ∈ cs, 0x20 ≤ c.toNat :=
  fun c member => of_decide_eq_true (List.all_eq_true.mp all c member)

theorem visible_magnitudeText {m : Nat} {e : Int} (canonical : Binary64.Canonical m e) :
    ∀ c ∈ magnitudeText m e, 0x20 ≤ c.toNat := by
  rw [magnitudeText]
  split
  · exact visible_of_all (by decide)
  next some' =>
    obtain ⟨n, grid, pos, -, digits⟩ := Decimal.shortest_near canonical (Nat.pos_of_ne_zero some')
    rw [digits]
    exact visible_decimalText (spells_stripZeros pos grid).all

theorem visible_numberText {x : Binary64} (canonical : x.IsCanonical) :
    ∀ c ∈ (numberText x).toList, 0x20 ≤ c.toNat := by
  cases x with
  | finite negative m e =>
      rw [toList_numberText]
      split
      · exact List.forall_mem_cons.mpr ⟨by decide, visible_magnitudeText canonical⟩
      · exact visible_magnitudeText canonical
  | infinite negative => cases negative <;> exact visible_of_all (by decide)
  | nan => exact visible_of_all (by decide)

end Json

end TestRoster
