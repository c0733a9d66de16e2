import TestRoster.Datum.Reader
import TestRoster.Proofs.Text.Span

/-!
Words and numerals.

A word is read whatever follows it. A numeral goes on as long as it can, so it is settled only where
a character follows that no numeral goes on with.
-/
namespace TestRoster

namespace Json

variable {cs rest tail : List Char} {c : Char}

theorem word?_of_mem {w : List Char × Datum} (member : w ∈ words) (rest : List Char) :
    word? (w.1 ++ rest) = some (w.2, rest) := by
  simp only [words, List.mem_cons, List.not_mem_nil, or_false] at member
  obtain rfl | rfl | rfl | rfl | rfl | rfl := member <;> rfl

theorem mem_words_of_word? {value : Datum} (read : word? cs = some (value, rest)) :
    ∃ w ∈ words, w.2 = value ∧ cs = w.1 ++ rest := by
  obtain ⟨w, found, same⟩ := Option.map_eq_some_iff.mp read
  cases same
  have front : w.1.isPrefixOf cs = true :=
    @List.find?_some _ (fun w : List Char × Datum => w.1.isPrefixOf cs) _ _ found
  obtain ⟨tail, rfl⟩ := List.isPrefixOf_iff_prefix.mp front
  exact ⟨w, List.mem_of_find?_eq_some found, rfl, by rw [List.drop_left]⟩

theorem word?_append {value : Datum} (read : word? cs = some (value, rest)) (more : List Char) :
    word? (cs ++ more) = some (value, rest ++ more) := by
  obtain ⟨w, member, rfl, rfl⟩ := mem_words_of_word? read
  rw [List.append_assoc, word?_of_mem member]

/-- No word begins as a numeral does. -/
theorem word?_digit (digit : isDigit c = true) (cs : List Char) :
    word? (c :: cs) = none ∧ word? ('-' :: c :: cs) = none := by
  have other : ∀ d, isDigit d = false → d ≠ c := by
    rintro d plain rfl
    rw [digit] at plain
    cases plain
  constructor
  · simp [word?, words, other 'n' rfl, other 't' rfl, other 'f' rfl, other 'N' rfl, other 'I' rfl,
      other '-' rfl]
  · simp [word?, words, other 'I' rfl]

/-- A character that no numeral goes on with. -/
structure Ends (c : Char) : Prop where
  point : c ≠ '.'
  exponent : ¬ (c = 'e' ∨ c = 'E')
  digit : isDigit c = false

def Settled (cs : List Char) : Prop :=
  ∀ c tail, cs = c :: tail → Ends c

theorem settled_nil : Settled [] :=
  fun _ _ same => nomatch same

theorem settled_cons (ends : Ends c) (cs : List Char) : Settled (c :: cs) := by
  rintro _ _ ⟨⟩
  exact ends

theorem ends_comma : Ends ',' := ⟨by decide, by decide, rfl⟩

theorem ends_bracket : Ends ']' := ⟨by decide, by decide, rfl⟩

theorem ends_brace : Ends '\x7d' := ⟨by decide, by decide, rfl⟩

theorem ends_space (space : isSpace c = true) : Ends c := by
  simp only [isSpace, Bool.or_eq_true, beq_iff_eq] at space
  obtain ((rfl | rfl) | rfl) | rfl := space
  all_goals exact ⟨by decide, by decide, rfl⟩

/-- Before blanks and a character that ends a numeral the numeral is settled. -/
theorem settled_of_skipSpace (next : skipSpace cs = c :: tail) (ends : Ends c) : Settled cs := by
  cases cs with
  | nil => exact settled_nil
  | cons b cs =>
      by_cases space : isSpace b = true
      · exact settled_cons (ends_space space) cs
      · rw [skipSpace, List.dropWhile_cons_of_neg space] at next
        obtain ⟨rfl, -⟩ := List.cons.inj next
        exact settled_cons ends cs

theorem span_append {p : Char → Bool} (stop : cs.dropWhile p = c :: tail) (more : List Char) :
    (cs ++ more).takeWhile p = cs.takeWhile p ∧ (cs ++ more).dropWhile p = c :: tail ++ more := by
  induction cs with
  | nil => cases stop
  | cons b cs ih =>
      by_cases goes : p b = true
      · rw [List.dropWhile_cons_of_pos goes] at stop
        obtain ⟨taken, dropped⟩ := ih stop
        rw [List.cons_append, List.takeWhile_cons_of_pos goes, List.dropWhile_cons_of_pos goes,
          List.takeWhile_cons_of_pos goes, taken]
        exact ⟨rfl, dropped⟩
      · rw [List.dropWhile_cons_of_neg goes] at stop
        rw [List.cons_append, List.takeWhile_cons_of_neg goes, List.dropWhile_cons_of_neg goes,
          List.takeWhile_cons_of_neg goes, ← stop]
        exact ⟨rfl, rfl⟩

theorem fraction_append {digits : List Char} (read : fraction cs = (digits, c :: tail))
    (point : c ≠ '.') (more : List Char) : fraction (cs ++ more) = (digits, c :: tail ++ more) := by
  unfold fraction at read
  split at read
  next rest =>
    dsimp only at read
    split at read
    next =>
      cases read
      exact absurd rfl point
    next some' =>
      obtain ⟨rfl, stop⟩ := Prod.mk.inj read
      obtain ⟨taken, dropped⟩ := span_append stop more
      simp only [List.cons_append, fraction, taken, if_neg some', dropped]
  next other =>
    cases read
    rw [List.cons_append, fraction]
    simp [point]

theorem signed_append (some' : (signed cs).2 ≠ []) (more : List Char) :
    signed (cs ++ more) = ((signed cs).1, (signed cs).2 ++ more) := by
  cases cs with
  | nil => exact absurd rfl some'
  | cons b cs =>
      by_cases minus : b = '-'
      · rw [minus]
        rfl
      · by_cases plus : b = '+'
        · rw [plus]
          rfl
        · rw [List.cons_append, signed_plain minus plus, signed_plain minus plus]
          rfl

theorem exponent?_cons (e : Char) (cs : List Char) :
    exponent? (e :: cs) =
      if e = 'e' ∨ e = 'E' then
        let digits := (signed cs).2.takeWhile isDigit
        if digits.isEmpty then none
        else
          let n : Int := number digits
          some (if (signed cs).1 then -n else n, (signed cs).2.dropWhile isDigit)
      else none :=
  rfl

theorem exponent?_append {e : Int} (read : exponent? cs = some (e, c :: tail)) (more : List Char) :
    exponent? (cs ++ more) = some (e, c :: tail ++ more) := by
  cases cs with
  | nil => cases read
  | cons b cs =>
      rw [List.cons_append, exponent?_cons]
      rw [exponent?_cons] at read
      split at read
      next letter =>
        dsimp only at read
        split at read
        next => cases read
        next some' =>
          obtain ⟨value, stop⟩ := Prod.mk.inj (Option.some.inj read)
          have digits : (signed cs).2 ≠ [] := fun empty => by simp [empty] at stop
          obtain ⟨taken, dropped⟩ := span_append stop more
          rw [if_pos letter, signed_append digits]
          simp only [taken, dropped, if_neg some', value]
      next => cases read

def whole (cs : List Char) : List Char :=
  match cs with
  | '0' :: _ => ['0']
  | _ => cs.takeWhile isDigit

theorem whole_append (some' : cs.drop (whole cs).length ≠ []) (more : List Char) :
    whole (cs ++ more) = whole cs ∧
      (cs ++ more).drop (whole cs).length = cs.drop (whole cs).length ++ more := by
  have long : (whole cs).length ≤ cs.length := by
    refine Nat.le_of_not_lt fun short => some' (List.drop_of_length_le (Nat.le_of_lt short))
  refine ⟨?_, List.drop_append_of_le_length long⟩
  cases cs with
  | nil => exact absurd rfl some'
  | cons b cs =>
      by_cases zero : b = '0'
      · rw [zero]
        rfl
      · have plain : ∀ cs, whole (b :: cs) = (b :: cs).takeWhile isDigit := fun cs => by
          rw [whole]
          exact fun _ same => zero (List.cons.inj same).1
        rw [plain] at some'
        rw [List.cons_append, plain, plain]
        have stop : (b :: cs).drop ((b :: cs).takeWhile isDigit).length =
          (b :: cs).dropWhile isDigit := by
          conv => lhs; arg 2; rw [← List.takeWhile_append_dropWhile (p := isDigit) (l := b :: cs)]
          exact List.drop_left
        rw [stop] at some'
        obtain ⟨c, tail, stops⟩ := List.exists_cons_of_ne_nil some'
        exact (span_append stops more).1

def numeralFrom (negative : Bool) (whole rest : List Char) :
    Option (Except Stop (Datum × List Char)) :=
  let (fractional, rest) := fraction rest
  match fractional, exponent? rest with
  | [], none =>
      if numeralLimit < whole.length then some (.error (.numeralTooLong whole.length))
      else
        let n : Int := number whole
        some (.ok (.int (if negative then -n else n), rest))
  | _, exponent =>
      let (e, rest) := exponent.getD (0, rest)
      some (.ok (.float (Binary64.ofDecimal negative (number (whole ++ fractional))
        (e - fractional.length)), rest))

theorem unsignedNumeral?_eq (negative : Bool) (cs : List Char) :
    unsignedNumeral? negative cs =
      if (whole cs).isEmpty then none
      else numeralFrom negative (whole cs) (cs.drop (whole cs).length) := by
  rfl

theorem numeralFrom_int (negative : Bool) (digits : List Char) (parts : fraction cs = ([], rest))
    (unscaled : exponent? rest = none) :
    numeralFrom negative digits cs =
      if numeralLimit < digits.length then some (.error (.numeralTooLong digits.length))
      else some (.ok (.int (if negative then -(number digits : Int) else number digits),
        rest)) := by
  simp only [numeralFrom, parts, unscaled]

theorem numeralFrom_float (negative : Bool) (digits : List Char) {fractional : List Char}
    (parts : fraction cs = (fractional, rest)) (broken : fractional ≠ [] ∨ exponent? rest ≠ none) :
    numeralFrom negative digits cs =
      some (.ok (.float (Binary64.ofDecimal negative (number (digits ++ fractional))
        (((exponent? rest).getD (0, rest)).1 - fractional.length)),
        ((exponent? rest).getD (0, rest)).2)) := by
  simp only [numeralFrom, parts]
  split
  next unscaled => simp [unscaled] at broken
  next => rfl

theorem numeralFrom_append {negative : Bool} {digits : List Char} {value : Datum}
    (read : numeralFrom negative digits cs = some (.ok (value, c :: tail))) (ends : Ends c)
    (more : List Char) :
    numeralFrom negative digits (cs ++ more) = some (.ok (value, c :: tail ++ more)) := by
  obtain ⟨fractional, rest, parts⟩ : ∃ fractional rest, fraction cs = (fractional, rest) :=
    ⟨_, _, rfl⟩
  have unscaled : exponent? (c :: tail ++ more) = none := by
    rw [List.cons_append, exponent?_cons, if_neg ends.exponent]
  cases scaled : exponent? rest with
  | none =>
      by_cases int : fractional = []
      · subst int
        rw [numeralFrom_int _ _ parts scaled] at read
        split at read
        next => cases read
        next small =>
          cases read
          rw [numeralFrom_int _ _ (fraction_append parts ends.point more) unscaled, if_neg small]
      · rw [numeralFrom_float _ _ parts (.inl int), scaled] at read
        cases read
        rw [numeralFrom_float _ _ (fraction_append parts ends.point more) (.inl int), unscaled]
        rfl
  | some exponent =>
      obtain ⟨e, behind⟩ := exponent
      rw [numeralFrom_float _ _ parts (.inr (by simp [scaled])), scaled] at read
      cases read
      cases rest with
      | nil => cases scaled
      | cons b rest =>
          have point : b ≠ '.' := by
            rintro rfl
            cases scaled
          have scaled' := exponent?_append scaled more
          rw [numeralFrom_float _ _ (fraction_append parts point more)
            (.inr (by rw [scaled']; exact Option.some_ne_none _)), scaled']
          rfl

theorem unsignedNumeral?_append {negative : Bool} {value : Datum}
    (read : unsignedNumeral? negative cs = some (.ok (value, c :: tail))) (ends : Ends c)
    (more : List Char) :
    unsignedNumeral? negative (cs ++ more) = some (.ok (value, c :: tail ++ more)) := by
  rw [unsignedNumeral?_eq] at read ⊢
  split at read
  next => cases read
  next some' =>
    have behind : cs.drop (whole cs).length ≠ [] := by
      intro empty
      rw [empty, numeralFrom_int _ _ rfl rfl] at read
      split at read <;> cases read
    obtain ⟨same, rest⟩ := whole_append behind more
    rw [same, if_neg some', rest]
    exact numeralFrom_append read ends more

theorem numeral?_append {value : Datum} (read : numeral? cs = some (.ok (value, c :: tail)))
    (ends : Ends c) (more : List Char) :
    numeral? (cs ++ more) = some (.ok (value, c :: tail ++ more)) := by
  cases cs with
  | nil => cases read
  | cons b cs =>
      by_cases minus : b = '-'
      · subst minus
        exact unsignedNumeral?_append read ends more
      · have plain : ∀ cs, numeral? (b :: cs) = unsignedNumeral? false (b :: cs) := fun cs => by
          rw [numeral?]
          exact fun _ same => minus (List.cons.inj same).1
        rw [plain] at read
        rw [List.cons_append, plain]
        exact unsignedNumeral?_append read ends more

/-- A numeral starts with a digit, behind its sign. -/
theorem digit_of_unsignedNumeral? {negative : Bool} {r : Except Stop (Datum × List Char)}
    (read : unsignedNumeral? negative cs = some r) :
    ∃ d tail, cs = d :: tail ∧ isDigit d = true := by
  rw [unsignedNumeral?_eq] at read
  split at read
  next => cases read
  next some' =>
    cases cs with
    | nil => exact absurd rfl some'
    | cons d tail =>
        refine ⟨d, tail, rfl, ?_⟩
        by_cases zero : d = '0'
        · rw [zero]
          rfl
        · rw [whole] at some'
          · cases digit : isDigit d with
            | true => rfl
            | false =>
                rw [List.takeWhile_cons_of_neg (by simp [digit])] at some'
                exact absurd rfl some'
          · exact fun _ same => zero (List.cons.inj same).1

theorem word?_numeral {r : Except Stop (Datum × List Char)} (read : numeral? cs = some r)
    (more : List Char) : word? (cs ++ more) = none := by
  rw [numeral?.eq_def] at read
  split at read
  next =>
    obtain ⟨d, tail, rfl, digit⟩ := digit_of_unsignedNumeral? read
    exact (word?_digit digit _).2
  next =>
    obtain ⟨d, tail, rfl, digit⟩ := digit_of_unsignedNumeral? read
    exact (word?_digit digit _).1

theorem numeralFrom_ne_dict {negative : Bool} {digits : List Char}
    {fields : List (String × Datum)} :
    numeralFrom negative digits cs ≠ some (.ok (.dict fields, rest)) := by
  intro read
  obtain ⟨fractional, behind, parts⟩ : ∃ fractional behind, fraction cs = (fractional, behind) :=
    ⟨_, _, rfl⟩
  by_cases int : fractional = [] ∧ exponent? behind = none
  · rw [numeralFrom_int _ _ (int.1 ▸ parts) int.2] at read
    split at read <;> cases read
  · rw [numeralFrom_float _ _ parts (Decidable.not_and_iff_not_or_not.mp int)] at read
    cases read

theorem numeral?_ne_dict {fields : List (String × Datum)} :
    numeral? cs ≠ some (.ok (.dict fields, rest)) := by
  have unsigned :
    ∀ negative cs, unsignedNumeral? negative cs ≠ some (.ok (.dict fields, rest)) := by
    intro negative cs read
    rw [unsignedNumeral?_eq] at read
    split at read
    next => cases read
    next => exact numeralFrom_ne_dict read
  rw [numeral?.eq_def]
  split
  next => exact unsigned _ _
  next => exact unsigned _ _

/-- A value that is neither a text nor a list nor a dictionary. -/
theorem value_other (fuel : Nat) (quote : c ≠ '"') (list : c ≠ '[') (dict : c ≠ '\x7b')
    (cs : List Char) :
    value (fuel + 1) (c :: cs) =
      match word? (c :: cs) with
      | some r => .ok r
      | none => (numeral? (c :: cs)).getD (.error (.at .value (c :: cs).length)) := by
  rw [value.eq_def]
  dsimp only
  split
  next same => exact absurd (List.cons.inj same).1 quote
  next same => exact absurd (List.cons.inj same).1 list
  next same => exact absurd (List.cons.inj same).1 dict
  next => rfl

end Json

end TestRoster
