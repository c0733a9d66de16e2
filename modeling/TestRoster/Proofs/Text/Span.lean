import TestRoster.Text.Blank
import TestRoster.Text.Digit
import TestRoster.Text.Numeral
import TestRoster.Text.Split

/-!
Spans of characters of one kind.

A text is taken or dropped up to the first character of another kind. No character is a blank and a
digit.
-/
namespace TestRoster

variable {p : Char → Bool} {span rest cs : List Char} {c : Char}

/-- Dropping passes over what is dropped and stops at what is not. -/
theorem dropWhile_between (each : ∀ c ∈ span, p c = true) (stop : ∀ c ∈ rest.head?, p c = false) :
    (span ++ rest).dropWhile p = rest := by
  rw [List.dropWhile_append_of_pos each]
  cases rest with
  | nil => rfl
  | cons c cs => exact List.dropWhile_cons_of_neg (by simp [stop c rfl])

theorem takeWhile_between (each : ∀ c ∈ span, p c = true) (stop : ∀ c ∈ rest.head?, p c = false) :
    (span ++ rest).takeWhile p = span := by
  rw [List.takeWhile_append_of_pos each]
  cases rest with
  | nil => simp
  | cons c cs => rw [List.takeWhile_cons_of_neg (by simp [stop c rfl]), List.append_nil]

theorem of_mem_takeWhile (member : c ∈ cs.takeWhile p) : p c = true :=
  List.all_eq_true.mp List.all_takeWhile c member

theorem head_dropWhile (p : Char → Bool) (cs : List Char) :
    ∀ c ∈ (cs.dropWhile p).head?, p c = false := by
  intro c first
  have stop := List.head?_dropWhile_not p cs
  rw [first] at stop
  exact stop

theorem drop_takeWhile (p : Char → Bool) (cs : List Char) :
    cs.drop (cs.takeWhile p).length = cs.dropWhile p :=
  calc cs.drop (cs.takeWhile p).length
      = (cs.takeWhile p ++ cs.dropWhile p).drop (cs.takeWhile p).length := by
        rw [List.takeWhile_append_dropWhile]
    _ = cs.dropWhile p := List.drop_left

theorem signed_plain (minus : c ≠ '-') (plus : c ≠ '+') (cs : List Char) :
    signed (c :: cs) = (false, c :: cs) := by
  rw [signed]
  · exact fun _ same => minus (List.cons.inj same).1
  · exact fun _ same => plus (List.cons.inj same).1

/-- A text with no blanks at its ends is not trimmed. -/
theorem trim_eq_self {cs : List Char} (first : ∀ c ∈ cs.head?, isBlank c = false)
    (last : ∀ c ∈ cs.getLast?, isBlank c = false) : trim cs = cs := by
  have front : cs.dropWhile isBlank = cs :=
    show ([] ++ cs).dropWhile isBlank = cs from dropWhile_between (by simp) first
  have back : cs.reverse.dropWhile isBlank = cs.reverse :=
    show ([] ++ cs.reverse).dropWhile isBlank = cs.reverse from
      dropWhile_between (by simp) (by simpa using last)
  rw [trim, trimStart, front, trimEnd, back, List.reverse_reverse]

/-- The rows of digits and the ranges of blanks lie apart. -/
theorem rows_apart : ∀ row ∈ digitZeros, ∀ range ∈ blankRanges, range.2 < row ∨
    row + 10 ≤ range.1 := by
  decide

/-- The code point of a digit lies in a row of digits. -/
theorem row_of_digit (digit : isDecimalDigit c = true) :
    ∃ row ∈ digitZeros, row ≤ c.toNat ∧ c.toNat < row + 10 := by
  rw [isDecimalDigit, decimalDigit?] at digit
  split at digit
  · split at digit
    next ascii => exact ⟨0x30, by decide, ascii.1, by omega⟩
    next => cases digit
  · rw [Option.isSome_map, List.find?_isSome] at digit
    obtain ⟨row, member, inside⟩ := digit
    rw [Bool.and_eq_true, decide_eq_true_iff, decide_eq_true_iff] at inside
    exact ⟨row, member, inside⟩

theorem not_blank_of_digit (digit : isDecimalDigit c = true) : isBlank c = false := by
  obtain ⟨row, here, low, high⟩ := row_of_digit digit
  refine List.any_eq_false.mpr fun range member => ?_
  have apart := rows_apart row here range member
  rw [Bool.and_eq_true, decide_eq_true_iff, decide_eq_true_iff]
  omega

theorem not_digit_of_blank (blank : isBlank c = true) : isDecimalDigit c = false := by
  cases digit : isDecimalDigit c with
  | false => rfl
  | true =>
      rw [not_blank_of_digit digit] at blank
      cases blank

theorem blank_of_lineBreak {c : Char} (ends : isLineBreak c = true) : isBlank c = true := by
  rw [isLineBreak, List.contains_iff_mem] at ends
  have each : ['\n', '\r', '\x0b', '\x0c', '\x1c', '\x1d', '\x1e', '\u0085', '\u2028',
      '\u2029'].all isBlank = true := by decide
  exact List.all_eq_true.mp each c ends

end TestRoster
