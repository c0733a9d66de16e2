import TestRoster.Proofs.Datum.Json

/-!
What stands behind a value does not change it.

A text, a list and a dictionary are read up to their last character, whatever follows, and with
whatever bound on the steps is enough. A numeral goes on as long as it can, so it is settled only
where a comma or a closing bracket is next, as it is between the parts of a list or a dictionary.
-/
namespace TestRoster

namespace Json

variable {cs acc rest tail : List Char} {c d : Char}

theorem fourHex?_append {n : Nat} (read : fourHex? cs = some (n, rest)) (more : List Char) :
    fourHex? (cs ++ more) = some (n, rest ++ more) ∧ cs.length = rest.length + 4 := by
  match cs with
  | [] | [_] | [_, _] | [_, _, _] => cases read
  | w :: x :: y :: z :: cs =>
      simp only [List.cons_append, fourHex?] at read ⊢
      cases first : hexValue? w <;> cases second : hexValue? x <;> cases third : hexValue? y <;>
        cases fourth : hexValue? z <;> simp_all

/-- The digits of an escape do not end the text. -/
theorem length_of_unicodeEscape (read : unicodeEscape cs = .ok (d, rest)) : 5 ≤ cs.length := by
  rw [unicodeEscape] at read
  split at read
  next => cases read
  next => cases read
  next high more some' digits =>
    have counted := (fourHex?_append digits []).2
    have positive := List.length_pos_iff.mpr fun empty => some' empty
    omega

/-- How a character of a text is spelled: the characters from there on, and those behind it. -/
inductive Spelled : List Char → Char → List Char → Prop where
  | plain {c : Char} (cs : List Char) (quote : c ≠ '"') (back : c ≠ '\\')
      (visible : ¬ c.toNat < 0x20) : Spelled (c :: cs) c cs
  | escape {d x : Char} (cs : List Char) (other : d ≠ 'u') (simple : simpleEscape? d = some x) :
      Spelled ('\\' :: d :: cs) x cs
  | unicode {x : Char} {digits cs : List Char} (read : unicodeEscape digits = .ok (x, cs)) :
      Spelled ('\\' :: 'u' :: digits) x cs

theorem quoted_of_spelled {x : Char} (spelled : Spelled cs x tail) (opened fuel : Nat)
    (acc : List Char) : quoted opened (fuel + 1) cs acc = quoted opened fuel tail (x :: acc) := by
  cases spelled with
  | plain tail quote back visible =>
      rw [quoted.eq_def]
      simp only [if_neg quote, if_neg back, if_neg visible]
  | escape tail other simple => simp [quoted, simple]
  | unicode read => simp [quoted, read]

/-- A text goes on with a character, or it ends. -/
theorem quoted_cases {opened fuel : Nat} {r : List Char × List Char}
    (read : quoted opened (fuel + 1) cs acc = .ok r) :
    (∃ rest, cs = '"' :: rest ∧ r = (acc.reverse, rest)) ∨
      ∃ x tail, Spelled cs x tail ∧ quoted opened fuel tail (x :: acc) = .ok r := by
  rw [quoted.eq_def] at read
  cases cs with
  | nil => cases read
  | cons c cs =>
      dsimp only at read
      by_cases quote : c = '"'
      · rw [if_pos quote] at read
        cases read
        exact .inl ⟨cs, by rw [quote], rfl⟩
      · rw [if_neg quote] at read
        by_cases back : c = '\\'
        · subst back
          rw [if_pos rfl] at read
          split at read
          next => cases read
          next digits =>
            split at read
            next x tail escape => exact .inr ⟨x, tail, .unicode escape, read⟩
            next => cases read
          next d tail other =>
            split at read
            next x simple => exact .inr ⟨x, tail, .escape tail other simple, read⟩
            next => cases read
        · rw [if_neg back] at read
          by_cases control : c.toNat < 0x20
          · rw [if_pos control] at read
            cases read
          · rw [if_neg control] at read
            exact .inr ⟨c, cs, .plain cs quote back control, read⟩

/-- That a text which is read on from here is not cut off within an escape. -/
structure Whole (cs : List Char) : Prop where
  escape : cs ≠ ['\\']
  unicode : ∀ digits, cs = '\\' :: 'u' :: digits → 5 ≤ digits.length

theorem whole_of_quoted {opened fuel : Nat} {r : List Char × List Char}
    (read : quoted opened fuel cs acc = .ok r) : Whole cs := by
  cases fuel with
  | zero => cases read
  | succ fuel =>
      rcases quoted_cases read with ⟨rest, rfl, -⟩ | ⟨x, tail, spelled, -⟩
      · exact ⟨by simp, by simp⟩
      · cases spelled with
        | plain tail quote back => exact ⟨by simp [back], by simp [back]⟩
        | escape tail other => exact ⟨by simp, by simp [other]⟩
        | unicode escape =>
            refine ⟨by simp, fun digits same => ?_⟩
            cases same
            exact length_of_unicodeEscape escape

/-- Where the digits behind a high surrogate are all there, more behind them makes no difference. -/
theorem unicodeEscape_append (read : unicodeEscape cs = .ok (d, rest)) (whole : Whole rest)
    (more : List Char) : unicodeEscape (cs ++ more) = .ok (d, rest ++ more) := by
  rw [unicodeEscape] at read ⊢
  split at read
  next => cases read
  next => cases read
  next high behind some' digits =>
    obtain ⟨digits', -⟩ := fourHex?_append digits more
    obtain ⟨b, bs, rfl⟩ := List.exists_cons_of_ne_nil fun empty => some' empty
    simp only [digits', List.cons_append]
    split at read
    next surrogate starts =>
      -- Another escape follows, whose digits are there.
      cases starts
      split at read
      next short =>
        cases read
        exact absurd (whole.unicode _ rfl) (Nat.not_le_of_lt short)
      next long =>
        simp only [surrogate, List.cons_append]
        rw [if_neg (by rw [List.length_append]; omega)]
        split at read
        next => cases read
        next low behind digits =>
          rw [(fourHex?_append digits more).1]
          dsimp only
          split at read
          next isLow =>
            obtain ⟨rfl, rfl⟩ := Prod.mk.inj (Except.ok.inj read)
            rw [if_pos isLow]
          next isOther =>
            cases read
            rw [if_neg isOther]
            rfl
    next single =>
      cases read
      split
      next surrogate starts =>
        -- A lone backslash at the end would begin an escape only with what follows.
        obtain ⟨rfl, behind⟩ := List.cons.inj starts
        cases bs with
        | nil => exact absurd rfl whole.escape
        | cons b' bs =>
            obtain ⟨rfl, -⟩ := List.cons.inj behind
            exact absurd rfl (single _ surrogate)
      next => rfl

theorem Spelled.append {x : Char} (spelled : Spelled cs x tail) (whole : Whole tail)
    (more : List Char) : Spelled (cs ++ more) x (tail ++ more) := by
  cases spelled with
  | plain tail quote back visible => exact .plain _ quote back visible
  | escape tail other simple => exact .escape _ other simple
  | unicode read => exact .unicode (unicodeEscape_append read whole more)

theorem quoted_append {opened opened' fuel fuel' : Nat} {text : List Char}
    (read : quoted opened fuel cs acc = .ok (text, rest)) (enough : fuel ≤ fuel')
    (more : List Char) : quoted opened' fuel' (cs ++ more) acc = .ok (text, rest ++ more) := by
  induction fuel generalizing fuel' cs acc with
  | zero => cases read
  | succ fuel ih =>
      obtain ⟨fuel', rfl⟩ : ∃ k, fuel' = k + 1 := ⟨fuel' - 1, by omega⟩
      rcases quoted_cases read with ⟨rest, rfl, ended⟩ | ⟨x, tail, spelled, later⟩
      · cases ended
        simp [quoted]
      · rw [quoted_of_spelled (spelled.append (whole_of_quoted later) more)]
        exact ih later (Nat.le_of_succ_le_succ enough)

theorem readQuoted_append {text : String} (read : readQuoted cs = .ok (text, rest))
    (more : List Char) : readQuoted (cs ++ more) = .ok (text, rest ++ more) := by
  rw [readQuoted] at read ⊢
  split at read
  next text rest' inside =>
    cases read
    rw [quoted_append inside (by simp) more]
  next => cases read

/-- That the next solid character ends the part of a list or a dictionary. -/
def Closes (cs : List Char) : Prop :=
  ∃ c tail, skipSpace cs = c :: tail ∧ (c = ',' ∨ c = ']' ∨ c = '\x7d')

theorem Closes.ends (closes : Closes cs) : ∃ c tail, cs = c :: tail ∧ Ends c := by
  obtain ⟨c, tail, next, closing⟩ := closes
  have ends : Ends c := by
    obtain rfl | rfl | rfl := closing
    · exact ends_comma
    · exact ends_bracket
    · exact ends_brace
  cases cs with
  | nil => cases next
  | cons b cs => exact ⟨b, cs, rfl, settled_of_skipSpace next ends b cs rfl⟩

theorem skipSpace_append_of_cons (next : skipSpace cs = c :: tail) (more : List Char) :
    skipSpace (cs ++ more) = c :: (tail ++ more) :=
  (span_append next more).2

theorem skipSpace_append_of_ne_nil (some' : skipSpace cs ≠ []) (more : List Char) :
    skipSpace (cs ++ more) = skipSpace cs ++ more := by
  obtain ⟨c, tail, next⟩ := List.exists_cons_of_ne_nil some'
  rw [skipSpace_append_of_cons next, next, List.cons_append]

/-- A word or a numeral that ends here is read so with more behind it. -/
theorem value_other_append {d : Datum} {fuel fuel' : Nat} (quote : c ≠ '"') (list : c ≠ '[')
    (dict : c ≠ '\x7b') (read : value (fuel + 1) (c :: cs) = .ok (d, rest))
    (settled : Closes rest ∨ ∃ fields, d = .dict fields) (more : List Char) :
    value (fuel' + 1) (c :: (cs ++ more)) = .ok (d, rest ++ more) := by
  rw [value_other _ quote list dict] at read ⊢
  rw [← List.cons_append]
  cases word : word? (c :: cs) with
  | some r =>
      rw [word] at read
      cases read
      rw [word?_append word]
  | none =>
      rw [word] at read
      cases numeral : numeral? (c :: cs) with
      | none =>
          rw [numeral] at read
          cases read
      | some r =>
          have same : numeral? (c :: cs) = some (.ok (d, rest)) := by
            rw [numeral] at read ⊢
            exact congrArg some read
          have longer : numeral? (c :: cs ++ more) = some (.ok (d, rest ++ more)) := by
            rcases settled with closes | ⟨fields, rfl⟩
            · obtain ⟨b, tail, rfl, ends⟩ := closes.ends
              exact numeral?_append same ends more
            · exact absurd same numeral?_ne_dict
          rw [word?_numeral numeral, longer]
          rfl

theorem ne_nil_of_value {fuel : Nat} {r : Datum × List Char} (read : value fuel cs = .ok r) :
    cs ≠ [] := by
  rintro rfl
  cases fuel <;> cases read

theorem ne_nil_of_items {fuel : Nat} {acc : List Datum} {r : Datum × List Char}
    (read : items fuel cs acc = .ok r) : cs ≠ [] := by
  rintro rfl
  cases fuel with
  | zero => cases read
  | succ fuel =>
      rw [items] at read
      split at read
      next => cases read
      next first => exact ne_nil_of_value first rfl

theorem ne_nil_of_fields {fuel : Nat} {acc : List (String × Datum)} {r : Datum × List Char}
    (read : fields fuel cs acc = .ok r) : cs ≠ [] := by
  rintro rfl
  cases fuel <;> cases read

mutual

/-- A value is read as before with more behind it. -/
theorem value_append {cs rest : List Char} {fuel fuel' : Nat} {d : Datum}
    (read : value fuel cs = .ok (d, rest)) (enough : fuel ≤ fuel')
    (settled : Closes rest ∨ ∃ fields, d = .dict fields) (more : List Char) :
    value fuel' (cs ++ more) = .ok (d, rest ++ more) := by
  match fuel, cs with
  | 0, _ => cases read
  | _, [] => exact absurd rfl (ne_nil_of_value read)
  | fuel + 1, c :: cs =>
      obtain ⟨fuel', rfl⟩ : ∃ k, fuel' = k + 1 := ⟨fuel' - 1, by omega⟩
      have enough := Nat.le_of_succ_le_succ enough
      rw [List.cons_append]
      by_cases quote : c = '"'
      · subst quote
        rw [value] at read ⊢
        cases text : readQuoted cs with
        | error e =>
            rw [text] at read
            cases read
        | ok r =>
            rw [text] at read
            cases read
            rw [readQuoted_append text more]
            rfl
      · by_cases list : c = '['
        · subst list
          rw [value] at read
          split at read
          next tail next =>
            cases read
            simp only [value, skipSpace_append_of_cons next more]
          next other =>
            obtain ⟨b, tail, next⟩ := List.exists_cons_of_ne_nil (ne_nil_of_items read)
            have inside : b ≠ ']' := fun same => other tail (same ▸ next)
            rw [value_list fuel' _ (skipSpace_append_of_cons next more) inside]
            rw [next] at read
            exact items_append read enough more
        · by_cases dict : c = '\x7b'
          · subst dict
            rw [value] at read
            split at read
            next tail next =>
              cases read
              simp only [value, skipSpace_append_of_cons next more]
            next other =>
              obtain ⟨b, tail, next⟩ := List.exists_cons_of_ne_nil (ne_nil_of_fields read)
              have inside : b ≠ '\x7d' := fun same => other tail (same ▸ next)
              rw [value_dict fuel' _ (skipSpace_append_of_cons next more) inside]
              rw [next] at read
              exact fields_append read enough more
          · exact value_other_append quote list dict read settled more
  termination_by fuel

theorem items_append {cs rest : List Char} {fuel fuel' : Nat} {d : Datum} {acc : List Datum}
    (read : items fuel cs acc = .ok (d, rest)) (enough : fuel ≤ fuel') (more : List Char) :
    items fuel' (cs ++ more) acc = .ok (d, rest ++ more) := by
  match fuel with
  | 0 => cases read
  | fuel + 1 =>
      obtain ⟨fuel', rfl⟩ : ∃ k, fuel' = k + 1 := ⟨fuel' - 1, by omega⟩
      have enough := Nat.le_of_succ_le_succ enough
      rw [items] at read ⊢
      split at read
      next => cases read
      next item behind first =>
        have first' (closes : Closes behind) := value_append first enough (.inl closes) more
        split at read
        next tail next =>
          cases read
          simp only [first' ⟨_, _, next, by simp⟩, skipSpace_append_of_cons next more]
        next tail next =>
          simp only [first' ⟨_, _, next, by simp⟩, skipSpace_append_of_cons next more,
            skipSpace_append_of_ne_nil (ne_nil_of_items read)]
          exact items_append read enough more
        next => cases read
  termination_by fuel

theorem fields_append {cs rest : List Char} {fuel fuel' : Nat} {d : Datum}
    {acc : List (String × Datum)} (read : fields fuel cs acc = .ok (d, rest))
    (enough : fuel ≤ fuel') (more : List Char) :
    fields fuel' (cs ++ more) acc = .ok (d, rest ++ more) := by
  match fuel with
  | 0 => cases read
  | fuel + 1 =>
      obtain ⟨fuel', rfl⟩ : ∃ k, fuel' = k + 1 := ⟨fuel' - 1, by omega⟩
      have enough := Nat.le_of_succ_le_succ enough
      rw [fields.eq_def] at read
      dsimp only at read
      split at read
      next inside =>
        split at read
        next => cases read
        next name behind text =>
          split at read
          next given colon =>
            split at read
            next => cases read
            next item behind' first =>
              have first' (closes : Closes behind') := value_append first enough (.inl closes) more
              rw [← skipSpace_append_of_ne_nil (ne_nil_of_value first)] at first'
              simp only [List.cons_append, fields, readQuoted_append text more,
                skipSpace_append_of_cons colon more]
              split at read
              next tail next =>
                cases read
                simp only [first' ⟨_, _, next, by simp⟩, skipSpace_append_of_cons next more]
              next tail next =>
                simp only [first' ⟨_, _, next, by simp⟩, skipSpace_append_of_cons next more,
                  skipSpace_append_of_ne_nil (ne_nil_of_fields read)]
                exact fields_append read enough more
              next => cases read
          next => cases read
      next => cases read
  termination_by fuel

end

theorem document_of_unmarked (unmarked : ∀ tail, cs ≠ '\uFEFF' :: tail) :
    document cs =
      match value (2 * cs.length + 2) (skipSpace cs) with
      | .error e => .error e
      | .ok (d, rest) =>
          match skipSpace rest with
          | [] => .ok d
          | other => .error (.at .endOfText other.length) := by
  rw [document.eq_def]
  split
  next rest => exact absurd rfl (unmarked rest)
  next => rfl

theorem skipSpace_ne_nil (member : c ∈ cs) (solid : isSpace c = false) : skipSpace cs ≠ [] := by
  induction member with
  | head cs => simp [skipSpace_cons solid]
  | tail b member ih =>
      cases space : isSpace b with
      | false => simp [skipSpace_cons space]
      | true =>
          rw [skipSpace, List.dropWhile_cons_of_pos space]
          exact ih

/-- A dictionary with more behind it is no document: the text goes on where it should end. -/
theorem document_append {fields : List (String × Datum)} (read : document cs = .ok (.dict fields))
    {more : List Char} (solid : ∃ c ∈ more, isSpace c = false) :
    ∃ left, document (cs ++ more) = .error (.at .endOfText left) := by
  have unmarked : ∀ tail, cs ≠ '\uFEFF' :: tail := by
    rintro tail rfl
    cases read
  rw [document_of_unmarked unmarked] at read
  split at read
  next => cases read
  next d rest first =>
    split at read
    next ended =>
      cases read
      have some' := ne_nil_of_value first
      have unmarked' : ∀ tail, cs ++ more ≠ '\uFEFF' :: tail := by
        cases cs with
        | nil => exact absurd rfl some'
        | cons c cs => exact fun tail same => unmarked cs (by rw [(List.cons.inj same).1])
      have longer := value_append first
        (show _ ≤ 2 * (cs ++ more).length + 2 by rw [List.length_append]; omega)
        (.inr ⟨fields, rfl⟩) more
      obtain ⟨c, member, visible⟩ := solid
      obtain ⟨b, tail, next⟩ := List.exists_cons_of_ne_nil
        (skipSpace_ne_nil (List.mem_append_right rest member) visible)
      rw [document_of_unmarked unmarked', skipSpace_append_of_ne_nil some', longer]
      exact ⟨(b :: tail).length, by simp only [next]⟩
    next => cases read

end Json

theorem Datum.ofJson_append {text : List Char} {fields : List (String × Datum)}
    (read : Datum.ofJson (String.ofList text) = .ok (.dict fields)) {more : List Char}
    (solid : ∃ c ∈ more, Json.isSpace c = false) :
    ∃ line column position, Datum.ofJson (String.ofList (text ++ more)) =
      .error (.malformed .endOfText line column position) := by
  rw [ofJson, String.toList_ofList] at read
  cases document : Json.document text with
  | error e =>
      rw [document] at read
      cases read
  | ok d =>
      rw [document] at read
      cases read
      obtain ⟨left, longer⟩ := Json.document_append document solid
      rw [ofJson, String.toList_ofList, longer]
      exact ⟨_, _, _, rfl⟩

end TestRoster
