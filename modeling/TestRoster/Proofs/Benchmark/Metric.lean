import TestRoster.Proofs.Benchmark.Line

/-!
Numbers with a unit in a result line.

A number with a unit stands at the end of a word, and the next word is the unit. It is written with
digits and points, perhaps with an exponent. Not all that is written so is a proper numeral: that
has a digit, and one point at most.
-/
namespace TestRoster

namespace BenchmarkResult

def IsMantissa (mantissa : List Char) : Prop :=
  mantissa ≠ [] ∧ ∀ c ∈ mantissa, isMantissaChar c = true

inductive SignText : List Char → Bool → Prop
  | none : SignText [] false
  | plus : SignText ['+'] false
  | minus : SignText ['-'] true

/-- What is written like a number: digits and points, perhaps with an exponent. -/
inductive MeasureText : List Char → Measure → Prop
  | plain (mantissa : List Char) (chars : IsMantissa mantissa) :
      MeasureText mantissa { mantissa := mantissa }
  | scaled (mantissa : List Char) (e : Char) (sign : List Char) (negative : Bool)
    (exponent : List Char)
      (chars : IsMantissa mantissa) (mark : e = 'e' ∨ e = 'E') (signed : SignText sign negative)
      (number : IsNumber exponent) :
      MeasureText (mantissa ++ e :: (sign ++ exponent))
        { mantissa := mantissa, negative := negative, exponent := exponent }

/-- A word ends in a number: the longest of its ends that is written like one. -/
structure EndsInNumber (word text : List Char) (n : Measure) : Prop where
  ends : text <:+ word
  number : MeasureText text n
  longest : ∀ text' n', text' <:+ word → MeasureText text' n' → text'.length ≤ text.length

/-- A number has one point at most, and a digit. -/
def Measure.Proper (n : Measure) : Prop :=
  n.mantissa.count '.' ≤ 1 ∧ ∃ c ∈ n.mantissa, c ≠ '.'

variable {word text : List Char} {n : Measure}

theorem signed_of_signText {sign exponent : List Char} {negative : Bool}
    (written : SignText sign negative)
    (number : IsNumber exponent) : signed (sign ++ exponent) = (negative, exponent) := by
  cases written with
  | none =>
      obtain ⟨d, ds, rfl⟩ := List.exists_cons_of_ne_nil number.1
      have digit := number.2 d List.mem_cons_self
      refine signed_plain ?_ ?_ ds
      · rintro rfl
        cases digit
      · rintro rfl
        cases digit
  | plus => rfl
  | minus => rfl

theorem signText_signed (cs : List Char) :
    ∃ sign, cs = sign ++ (signed cs).2 ∧ SignText sign (signed cs).1 := by
  cases cs with
  | nil => exact ⟨[], rfl, .none⟩
  | cons c cs =>
      by_cases minus : c = '-'
      · exact ⟨['-'], by rw [minus]; rfl, by rw [minus]; exact .minus⟩
      · by_cases plus : c = '+'
        · exact ⟨['+'], by rw [plus]; rfl, by rw [plus]; exact .plus⟩
        · rw [signed_plain minus plus]
          exact ⟨[], rfl, .none⟩

theorem measure?_of_measureText (written : MeasureText text n) : measure? text = some n := by
  cases written with
  | plain _ chars =>
      have taken : (text ++ []).takeWhile isMantissaChar = text :=
        takeWhile_between chars.2 (by simp)
      rw [List.append_nil] at taken
      rw [measure?, taken]
      simp [chars.1]
  | scaled mantissa e sign negative exponent chars mark written number =>
      have other : isMantissaChar e = false := by
        rcases mark with rfl | rfl <;> rfl
      have taken : (mantissa ++ e :: (sign ++ exponent)).takeWhile isMantissaChar = mantissa :=
        takeWhile_between chars.2 fun c first => Option.some.inj first ▸ other
      have known : ¬ (e ≠ 'e' ∧ e ≠ 'E') := by
        rcases mark with rfl | rfl <;> simp
      rw [measure?]
      simp only [taken, List.drop_left]
      rw [if_neg chars.1, if_neg known, signed_of_signText written number]
      exact if_pos ⟨number.1, List.all_eq_true.mpr number.2⟩

theorem measureText_of_measure? (read : measure? text = some n) : MeasureText text n := by
  obtain ⟨mantissa, first⟩ : ∃ mantissa, text.takeWhile isMantissaChar = mantissa := ⟨_, rfl⟩
  obtain ⟨behind, second⟩ : ∃ behind, text.dropWhile isMantissaChar = behind := ⟨_, rfl⟩
  have whole : text = mantissa ++ behind := by
    rw [← first, ← second, List.takeWhile_append_dropWhile]
  have chars : ∀ c ∈ mantissa, isMantissaChar c = true := by
    rw [← first]
    exact fun _ => of_mem_takeWhile
  rw [measure?, drop_takeWhile, first, second] at read
  split at read
  next => cases read
  next some' =>
    split at read
    next =>
      cases read
      rw [whole, List.append_nil]
      exact .plain mantissa ⟨some', chars⟩
    next e rest =>
      split at read
      next => cases read
      next mark =>
        obtain ⟨sign, same, written⟩ := signText_signed rest
        obtain ⟨⟨negative, exponent⟩, parts⟩ : ∃ parts, signed rest = parts := ⟨_, rfl⟩
        rw [parts] at same written read
        dsimp only at read
        split at read
        next number =>
          cases read
          rw [whole, same]
          exact .scaled mantissa e sign negative exponent ⟨some', chars⟩
            (Decidable.or_iff_not_not_and_not.mpr mark) written
              ⟨number.1, List.all_eq_true.mp number.2⟩
        next => cases read

theorem measure?_eq_some_iff : measure? text = some n ↔ MeasureText text n :=
  ⟨measureText_of_measure?, measure?_of_measureText⟩

/-- A word that is not written like a number ends in what the rest of it ends in. -/
theorem endsInNumber_cons {c : Char} (other : ∀ m, ¬ MeasureText (c :: word) m) :
    EndsInNumber (c :: word) text n ↔ EndsInNumber word text n := by
  have shorter {text : List Char} {n : Measure} (ends : text <:+ c :: word)
    (number : MeasureText text n) :
      text <:+ word := by
    rcases List.suffix_cons_iff.mp ends with rfl | ends
    · exact absurd number (other n)
    · exact ends
  constructor
  · intro h
    exact ⟨shorter h.ends h.number, h.number, fun text' n' ends number =>
      h.longest text' n' (ends.trans (List.suffix_cons c word)) number⟩
  · intro h
    exact ⟨h.ends.trans (List.suffix_cons c word), h.number, fun text' n' ends number =>
      h.longest text' n' (shorter ends number) number⟩

/-- The number at the end of a word is the longest of its ends that is written like one. -/
theorem measureAtEnd?_eq_some_iff : measureAtEnd? word = some (text, n) ↔
    EndsInNumber word text n := by
  induction word with
  | nil =>
      refine ⟨(nomatch ·), fun h => ?_⟩
      have number := measure?_eq_some_iff.mpr h.number
      rw [List.suffix_nil.mp h.ends] at number
      exact nomatch number
  | cons c word ih =>
      rw [measureAtEnd?]
      cases here : measure? (c :: word) with
      | some m =>
          have number := measure?_eq_some_iff.mp here
          constructor
          · intro same
            cases same
            exact ⟨List.suffix_refl _, number, fun text' n' ends _ => ends.length_le⟩
          · intro h
            have whole := h.ends.eq_of_length_le (h.longest _ m (List.suffix_refl _) number)
            have same := measure?_eq_some_iff.mpr h.number
            rw [whole, here] at same
            rw [whole, Option.some.inj same]
      | none =>
          have other (m : Measure) : ¬ MeasureText (c :: word) m := fun number =>
            nomatch here.symm.trans (measure?_eq_some_iff.mpr number)
          exact ih.trans (endsInNumber_cons other).symm

theorem exists_ne_point_iff {cs : List Char} (digits : ∀ c ∈ cs, c ≠ '.') :
    (∃ c ∈ cs, c ≠ '.') ↔ cs ≠ [] := by
  constructor
  · rintro ⟨c, member, -⟩
    exact List.ne_nil_of_mem member
  · intro some'
    obtain ⟨c, cs, rfl⟩ := List.exists_cons_of_ne_nil some'
    exact ⟨c, List.mem_cons_self, digits c List.mem_cons_self⟩

/-- The value of what is written like a number is told exactly where it is a proper numeral. -/
theorem value?_isSome_iff (n : Measure) : n.value?.isSome ↔ n.Proper := by
  obtain ⟨mantissa, negative, exponent⟩ := n
  obtain ⟨whole, first⟩ : ∃ whole, mantissa.takeWhile (· != '.') = whole := ⟨_, rfl⟩
  obtain ⟨behind, second⟩ : ∃ behind, mantissa.dropWhile (· != '.') = behind := ⟨_, rfl⟩
  have split : mantissa = whole ++ behind := by
    rw [← first, ← second, List.takeWhile_append_dropWhile]
  have dropped : mantissa.drop whole.length = behind := by
    rw [← first, drop_takeWhile, second]
  have digits : ∀ c ∈ whole, c ≠ '.' := by
    intro c member
    rw [← first] at member
    simpa using of_mem_takeWhile member
  have none' : whole.count '.' = 0 := List.count_eq_zero.mpr fun member => digits _ member rfl
  have told : (Measure.value? ⟨mantissa, negative, exponent⟩).isSome ↔
      ¬ ('.' ∈ behind.drop 1 ∨ (whole = [] ∧ behind.drop 1 = [])) := by
    rw [Measure.value?]
    simp only [first, dropped, List.contains_iff_mem]
    split
    next fault => exact iff_of_false (by simp) (not_not_intro fault)
    next proper => exact iff_of_true rfl proper
  rw [told, Measure.Proper]
  simp only [split, List.count_append, none', Nat.zero_add]
  -- The whole part holds no point, so all points but the first are in the fraction.
  cases behind with
  | nil =>
      rw [List.append_nil, exists_ne_point_iff digits]
      simp
  | cons point fraction =>
      obtain rfl : point = '.' := by
        simpa using head_dropWhile (· != '.') mantissa point (by rw [second]; rfl)
      by_cases more : '.' ∈ fraction
      · have many := List.count_pos_iff.mpr more
        exact iff_of_false (not_not_intro (.inl more)) fun proper => by
          rw [List.count_cons_self] at proper
          omega
      · have digits' : ∀ c ∈ whole ++ fraction, c ≠ '.' := fun c member =>
          (List.mem_append.mp member).elim (digits c) fun inside same => more (same ▸ inside)
        have either := exists_ne_point_iff digits'
        have once := List.count_eq_zero.mpr more
        simp only [List.mem_append, or_and_right, exists_or, ne_eq, List.append_eq_nil_iff]
          at either
        simp [more, once, or_and_right, exists_or, either]

end BenchmarkResult

end TestRoster
