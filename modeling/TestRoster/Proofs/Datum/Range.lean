import TestRoster.Proofs.Datum.Json

/-!
What documents give.

Whatever is read from a document is plain: the reader refuses integers of too many digits, its
numbers are rounded, and a name that comes again in a dictionary only changes a value. So every
value that was read can be written and read again.
-/
namespace TestRoster

namespace Json

variable {cs rest : List Char} {d : Datum} {fuel : Nat}

theorem digit_value {c : Char} (digit : isDigit c = true) : c.toNat - '0'.toNat < 10 := by
  rw [isDigit, Bool.and_eq_true, decide_eq_true_iff, decide_eq_true_iff] at digit
  have high : c.toNat ≤ '9'.toNat := digit.2
  exact Nat.lt_of_le_of_lt (Nat.sub_le_sub_right high _) (by decide)

theorem ofDigitChars_lt {digits : List Char} (all : ∀ c ∈ digits, isDigit c = true) (n : Nat) :
    Nat.ofDigitChars 10 digits n < 10 ^ digits.length * (n + 1) := by
  induction digits generalizing n with
  | nil => simp
  | cons c digits ih =>
      obtain ⟨digit, others⟩ := List.forall_mem_cons.mp all
      have value := digit_value digit
      rw [Nat.ofDigitChars_cons, List.length_cons, Nat.pow_succ, Nat.mul_assoc]
      exact Nat.lt_of_lt_of_le (ih others _) (Nat.mul_le_mul_left _ (by omega))

theorem number_lt {digits : List Char} (all : ∀ c ∈ digits, isDigit c = true) :
    number digits < 10 ^ digits.length := by
  have bound := ofDigitChars_lt all 0
  rwa [← number_eq, Nat.zero_add, Nat.mul_one] at bound

theorem isDigit_of_mem_whole {c : Char} (member : c ∈ whole cs) : isDigit c = true := by
  rw [whole.eq_def] at member
  split at member
  next =>
    rw [List.mem_singleton.mp member]
    rfl
  next => exact List.all_eq_true.mp List.all_takeWhile c member

theorem plain_of_numeralFrom {negative : Bool} {digits : List Char}
    (all : ∀ c ∈ digits, isDigit c = true)
    (read : numeralFrom negative digits cs = some (.ok (d, rest))) : d.Plain := by
  obtain ⟨fractional, behind, parts⟩ : ∃ fractional behind, fraction cs = (fractional, behind) :=
    ⟨_, _, rfl⟩
  by_cases int : fractional = [] ∧ exponent? behind = none
  · rw [numeralFrom_int _ _ (int.1 ▸ parts) int.2] at read
    split at read
    next => cases read
    next short =>
      cases read
      have bound : number digits < 10 ^ numeralLimit := Nat.lt_of_lt_of_le (number_lt all)
        (Nat.pow_le_pow_right (by decide) (Nat.not_lt.mp short))
      refine .int ?_
      split <;> omega
  · rw [numeralFrom_float _ _ parts (Decidable.not_and_iff_not_or_not.mp int)] at read
    cases read
    exact .float (Binary64.isCanonical_ofDecimal _ _ _)

theorem plain_of_numeral? (read : numeral? cs = some (.ok (d, rest))) : d.Plain := by
  have unsigned : ∀ negative cs, unsignedNumeral? negative cs = some (.ok (d, rest)) → d.Plain := by
    intro negative cs read
    rw [unsignedNumeral?_eq] at read
    split at read
    next => cases read
    next => exact plain_of_numeralFrom (fun _ => isDigit_of_mem_whole) read
  rw [numeral?.eq_def] at read
  split at read
  next => exact unsigned _ _ read
  next => exact unsigned _ _ read

theorem plain_of_word? (read : word? cs = some (d, rest)) : d.Plain := by
  obtain ⟨w, member, rfl, -⟩ := mem_words_of_word? read
  simp only [words, List.mem_cons, List.not_mem_nil, or_false] at member
  obtain rfl | rfl | rfl | rfl | rfl | rfl := member
  · exact .null
  · exact .bool true
  · exact .bool false
  · exact .float trivial
  · exact .float trivial
  · exact .float trivial

theorem plain_of_value_other {c : Char} (quote : c ≠ '"') (list : c ≠ '[') (dict : c ≠ '\x7b')
    (read : value (fuel + 1) (c :: cs) = .ok (d, rest)) : d.Plain := by
  rw [value_other _ quote list dict] at read
  cases word : word? (c :: cs) with
  | some r =>
      rw [word] at read
      cases read
      exact plain_of_word? word
  | none =>
      rw [word] at read
      cases numeral : numeral? (c :: cs) with
      | none =>
          rw [numeral] at read
          cases read
      | some r =>
          rw [numeral] at read
          have read : numeral? (c :: cs) = some (.ok (d, rest)) :=
            numeral.trans (congrArg some read)
          exact plain_of_numeral? read

mutual

/-- What is read is plain. The induction is on the bound of the steps, with the parts that were
read. -/
theorem plain_of_value {cs rest : List Char} {d : Datum} {fuel : Nat}
    (read : value fuel cs = .ok (d, rest)) : d.Plain := by
  match fuel, cs with
  | 0, _ => cases read
  | fuel + 1, [] => cases read
  | fuel + 1, c :: cs =>
      by_cases quote : c = '"'
      · subst quote
        rw [value] at read
        cases text : readQuoted cs with
        | error e =>
            rw [text] at read
            cases read
        | ok r =>
            rw [text] at read
            cases read
            exact .str _
      · by_cases list : c = '['
        · subst list
          rw [value] at read
          split at read
          next =>
            cases read
            exact .list (by simp)
          next => exact plain_of_items read (by simp)
        · by_cases dict : c = '\x7b'
          · subst dict
            rw [value] at read
            split at read
            next =>
              cases read
              exact .dict (by simp) (by simp)
            next => exact plain_of_fields read (by simp) (by simp)
          · exact plain_of_value_other quote list dict read
  termination_by fuel

theorem plain_of_items {cs rest : List Char} {d : Datum} {fuel : Nat} {acc : List Datum}
    (read : items fuel cs acc = .ok (d, rest)) (each : ∀ x ∈ acc, x.Plain) : d.Plain := by
  match fuel with
  | 0 => cases read
  | fuel + 1 =>
      rw [items] at read
      split at read
      next => cases read
      next item behind first =>
        have each' : ∀ x ∈ item :: acc, x.Plain :=
          List.forall_mem_cons.mpr ⟨plain_of_value first, each⟩
        split at read
        next =>
          cases read
          exact .list fun x member => each' x (List.mem_reverse.mp member)
        next => exact plain_of_items read each'
        next => cases read
  termination_by fuel

theorem plain_of_fields {cs rest : List Char} {d : Datum} {fuel : Nat}
    {acc : List (String × Datum)} (read : fields fuel cs acc = .ok (d, rest))
    (once : (acc.map Prod.fst).Nodup) (each : ∀ f ∈ acc, f.2.Plain) : d.Plain := by
  match fuel with
  | 0 => cases read
  | fuel + 1 =>
      rw [fields.eq_def] at read
      dsimp only at read
      split at read
      next =>
        split at read
        next => cases read
        next name behind text =>
          split at read
          next =>
            split at read
            next => cases read
            next item behind' first =>
              have plain := plain_of_value first
              have once' : ((setNamed name item acc).map Prod.fst).Nodup :=
                nodup_setNamed once
              have each' : ∀ f ∈ setNamed name item acc, f.2.Plain := by
                intro f member
                rcases mem_setNamed member with rfl | old
                · exact plain
                · exact each f old
              split at read
              next =>
                cases read
                exact .dict once' each'
              next => exact plain_of_fields read once' each'
              next => cases read
          next => cases read
      next => cases read
  termination_by fuel

end

theorem plain_of_document (read : document cs = .ok d) : d.Plain := by
  rw [document.eq_def] at read
  split at read
  next => cases read
  next =>
    split at read
    next => cases read
    next first =>
      split at read
      next =>
        cases read
        exact plain_of_value first
      next => cases read

end Json

/-- Whatever a document gives is plain. -/
theorem Datum.plain_of_ofJson {text : String} {d : Datum} (read : Datum.ofJson text = .ok d) :
    d.Plain := by
  rw [ofJson] at read
  cases document : Json.document text.toList with
  | error e =>
      rw [document] at read
      cases read
  | ok d' =>
      rw [document] at read
      cases read
      exact Json.plain_of_document document

end TestRoster
