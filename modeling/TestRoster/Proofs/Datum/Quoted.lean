import TestRoster.Datum.Reader
import TestRoster.Datum.Writer
import TestRoster.Proofs.Text.Utf8

/-!
Texts in quotes are read back.

Every character is read from what it was written as, be that itself, a short escape, or one or two
escapes with its code.
-/
namespace TestRoster

namespace Json

theorem hexValue?_digitChar : ∀ d, d < 16 → hexValue? (Nat.digitChar d) = some d := by
  decide

theorem hexPadded_four {n : Nat} (small : n < 0x10000) :
    hexPadded 4 n = [Nat.digitChar (n / 4096), Nat.digitChar (n / 256 % 16),
      Nat.digitChar (n / 16 % 16), Nat.digitChar (n % 16)] := by
  rw [hexPadded]
  by_cases one : n < 16
  · have digits : n / 4096 = 0 ∧ n / 256 % 16 = 0 ∧ n / 16 % 16 = 0 ∧ n % 16 = n := by omega
    rw [Nat.toDigits_of_lt_base one, digits.1, digits.2.1, digits.2.2.1, digits.2.2.2]
    rfl
  · rw [Nat.toDigits_of_base_le (by decide) (Nat.le_of_not_lt one)]
    by_cases two : n / 16 < 16
    · have digits : n / 4096 = 0 ∧ n / 256 % 16 = 0 ∧ n / 16 % 16 = n / 16 := by omega
      rw [Nat.toDigits_of_lt_base two, digits.1, digits.2.1, digits.2.2]
      rfl
    · rw [Nat.toDigits_of_base_le (by decide) (Nat.le_of_not_lt two), Nat.div_div_eq_div_mul]
      by_cases three : n / 256 < 16
      · have digits : n / 4096 = 0 ∧ n / 256 % 16 = n / 256 := by omega
        rw [Nat.toDigits_of_lt_base three, digits.1, digits.2]
        rfl
      · rw [Nat.toDigits_of_base_le (by decide) (Nat.le_of_not_lt three), Nat.div_div_eq_div_mul,
          Nat.toDigits_of_lt_base (by omega)]
        rfl

theorem fourHex?_hexPadded {n : Nat} (small : n < 0x10000) (rest : List Char) :
    fourHex? (hexPadded 4 n ++ rest) = some (n, rest) := by
  rw [hexPadded_four small]
  have value : ((n / 4096 * 16 + n / 256 % 16) * 16 + n / 16 % 16) * 16 + n % 16 = n := by omega
  simp [fourHex?, hexValue?_digitChar _ (show n / 4096 < 16 by omega),
    hexValue?_digitChar _ (show n / 256 % 16 < 16 by omega),
    hexValue?_digitChar _ (show n / 16 % 16 < 16 by omega),
    hexValue?_digitChar _ (show n % 16 < 16 by omega), value]

/-- An escape that is no half of a pair is one character. -/
theorem unicodeEscape_single {n : Nat} (small : n < 0x10000) (high : isHighSurrogate n = false)
    {more : List Char} (some' : more ≠ []) :
    unicodeEscape (hexPadded 4 n ++ more) = .ok (scalar n, more) := by
  obtain ⟨next, later, rfl⟩ := List.exists_cons_of_ne_nil some'
  simp [unicodeEscape, fourHex?_hexPadded small, high]

/-- Two escapes that make up a pair are one character. -/
theorem unicodeEscape_pair {high low : Nat} (small : high < 0x10000) (small' : low < 0x10000)
    (isHigh : isHighSurrogate high = true) (isLow : isLowSurrogate low = true)
    {more : List Char} (some' : more ≠ []) :
    unicodeEscape (hexPadded 4 high ++ '\\' :: 'u' :: (hexPadded 4 low ++ more)) =
      .ok (Char.ofNat (0x10000 + (high - 0xD800) * 0x400 + (low - 0xDC00)), more) := by
  have long : ¬ (hexPadded 4 low ++ more).length < 5 := by
    have length := List.length_pos_iff.mpr some'
    rw [hexPadded_four small', List.length_append]
    simp only [List.length_cons, List.length_nil]
    omega
  simp only [unicodeEscape, fourHex?_hexPadded small, fourHex?_hexPadded small', isHigh, isLow,
    if_neg long, if_true]

theorem escapedChar_eq (c : Char) :
    escapedChar c =
      if c.toNat < 0x10000 then fourDigits c.toNat
      else fourDigits (0xD800 + (c.toNat - 0x10000) / 0x400) ++
        fourDigits (0xDC00 + (c.toNat - 0x10000) % 0x400) := by
  rw [escapedChar]

theorem escapedChar_ne_nil (c : Char) : escapedChar c ≠ [] := by
  rw [escapedChar_eq]
  split <;> exact List.cons_ne_nil _ _

/-- A code point above FFFF as the halves of a pair. -/
theorem halves {n : Nat} (above : 0x10000 ≤ n) (below : n < 0x110000) :
    ∃ high low, (n - 0x10000) / 0x400 = high ∧ (n - 0x10000) % 0x400 = low ∧
      high < 0x400 ∧ low < 0x400 ∧ 0x10000 + high * 0x400 + low = n :=
  ⟨_, _, rfl, rfl, by omega, by omega, by omega⟩

theorem unicodeEscape_below {c : Char} (plane : c.toNat < 0x10000) {more : List Char}
    (some' : more ≠ []) : unicodeEscape (hexPadded 4 c.toNat ++ more) = .ok (c, more) := by
  have point := Utf8.codePoint c
  have high : isHighSurrogate c.toNat = false := by
    simp only [isHighSurrogate, Bool.and_eq_false_iff, decide_eq_false_iff_not]
    omega
  rw [unicodeEscape_single plane high some', scalar, if_neg (by omega), Char.ofNat_toNat]

theorem unicodeEscape_above {high low : Nat} (bounds : high < 0x400) (bounds' : low < 0x400)
    {more : List Char} (some' : more ≠ []) :
    unicodeEscape (hexPadded 4 (0xD800 + high) ++ '\\' :: 'u' ::
        (hexPadded 4 (0xDC00 + low) ++ more)) =
      .ok (Char.ofNat (0x10000 + high * 0x400 + low), more) := by
  have isHigh : isHighSurrogate (0xD800 + high) = true := by
    simp only [isHighSurrogate, Bool.and_eq_true, decide_eq_true_eq]
    omega
  have isLow : isLowSurrogate (0xDC00 + low) = true := by
    simp only [isLowSurrogate, Bool.and_eq_true, decide_eq_true_eq]
    omega
  rw [unicodeEscape_pair (by omega) (by omega) isHigh isLow some', Nat.add_sub_cancel_left,
    Nat.add_sub_cancel_left]

/-- The escape of a character is read as this character, if more follows. -/
theorem unicodeEscape_escapedChar (c : Char) {more : List Char} (some' : more ≠ []) :
    ∃ digits, escapedChar c ++ more = '\\' :: 'u' :: digits ∧
      unicodeEscape digits = .ok (c, more) := by
  rw [escapedChar_eq]
  by_cases plane : c.toNat < 0x10000
  · rw [if_pos plane]
    exact ⟨hexPadded 4 c.toNat ++ more, rfl, unicodeEscape_below plane some'⟩
  · have top : c.toNat < 0x110000 := by
      have point := Utf8.codePoint c
      omega
    obtain ⟨high, low, isHigh, isLow, bounds, bounds', joined⟩ :=
      halves (Nat.le_of_not_lt plane) top
    rw [if_neg plane, isHigh, isLow]
    refine ⟨hexPadded 4 (0xD800 + high) ++ '\\' :: 'u' :: (hexPadded 4 (0xDC00 + low) ++ more),
      by simp [fourDigits], ?_⟩
    rw [unicodeEscape_above bounds bounds' some', joined, Char.ofNat_toNat]

/-- A character of a text in quotes is read as it is, if more follows. -/
theorem quoted_textChar (opened fuel : Nat) (asciiOnly : Bool) (c : Char) {more : List Char}
    (some' : more ≠ []) (acc : List Char) :
    quoted opened (fuel + 1) (textChar asciiOnly c ++ more) acc =
      quoted opened fuel more (c :: acc) := by
  have escaped : ∀ c : Char, quoted opened (fuel + 1) (escapedChar c ++ more) acc =
      quoted opened fuel more (c :: acc) := by
    intro c
    obtain ⟨digits, split, read⟩ := unicodeEscape_escapedChar c some'
    rw [split, quoted]
    simp [read]
  rw [textChar]
  by_cases simple : c = '"' ∨ c = '\\' ∨ c = '\n' ∨ c = '\r' ∨ c = '\t' ∨ c = '\x0c' ∨ c = '\x08'
  · obtain rfl | rfl | rfl | rfl | rfl | rfl | rfl := simple <;> rfl
  · simp only [not_or] at simple
    obtain ⟨quote, back, line, carriage, tab, form, bell⟩ := simple
    rw [if_neg quote, if_neg back, if_neg line, if_neg carriage, if_neg tab, if_neg form,
      if_neg bell]
    by_cases control : c.toNat < 0x20
    · rw [if_pos control]
      exact escaped c
    · rw [if_neg control]
      split
      · exact escaped c
      · simp [quoted, quote, back, control]

theorem textChar_ne_nil (asciiOnly : Bool) (c : Char) : textChar asciiOnly c ≠ [] := by
  rw [textChar]
  repeat' split
  all_goals first | exact escapedChar_ne_nil c | exact List.cons_ne_nil _ _

theorem quoted_text (opened : Nat) (asciiOnly : Bool) (cs rest acc : List Char) (fuel : Nat)
    (enough : cs.length < fuel) :
    quoted opened fuel (cs.flatMap (textChar asciiOnly) ++ '"' :: rest) acc =
      .ok (acc.reverse ++ cs, rest) := by
  induction cs generalizing fuel acc with
  | nil =>
      obtain ⟨fuel, rfl⟩ : ∃ k, fuel = k + 1 := ⟨fuel - 1, by simp at enough; omega⟩
      simp [quoted]
  | cons c cs ih =>
      obtain ⟨fuel, rfl⟩ : ∃ k, fuel = k + 1 := ⟨fuel - 1, by simp at enough; omega⟩
      rw [List.flatMap_cons, List.append_assoc, quoted_textChar _ _ _ _ (by simp),
        ih _ _ (by simpa using enough)]
      simp

theorem length_le_flatMap_textChar (asciiOnly : Bool) (cs : List Char) :
    cs.length ≤ (cs.flatMap (textChar asciiOnly)).length := by
  induction cs with
  | nil => simp
  | cons c cs ih =>
      have some' := List.length_pos_iff.mpr (textChar_ne_nil asciiOnly c)
      rw [List.flatMap_cons, List.length_append, List.length_cons]
      omega

theorem toList_quote (asciiOnly : Bool) (s : String) :
    (quote asciiOnly s).toList = '"' :: (s.toList.flatMap (textChar asciiOnly) ++ ['"']) := by
  rw [quote, String.toList_ofList]
  rfl

/-- A text is read back from its quoted form. -/
theorem readQuoted_quote (asciiOnly : Bool) (s : String) (rest : List Char) :
    readQuoted (s.toList.flatMap (textChar asciiOnly) ++ '"' :: rest) = .ok (s, rest) := by
  have enough := length_le_flatMap_textChar asciiOnly s.toList
  rw [readQuoted, quoted_text _ _ _ _ _ _ (by rw [List.length_append]; omega)]
  simp

end Json

end TestRoster
