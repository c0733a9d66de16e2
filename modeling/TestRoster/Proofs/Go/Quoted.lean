import Mathlib.Data.List.Forall2
import Mathlib.Tactic.Ring
import TestRoster.Go.Quoted
import TestRoster.Proofs.Text.Utf8

/-!
The spellings of an interpreted literal.

Each character of a text has a spelling of its own choice: itself, a letter behind a backslash, its
number, or its bytes one by one. A body is read spelling by spelling, since each of them tells where
it ends; it gives the bytes of the characters, and these are read as the text.
-/
namespace TestRoster.Quoted

/-- That a character is the digit of a value, in either case. -/
def IsDigit (value : Nat) (c : Char) : Prop :=
  "0123456789abcdef".toList[value]? = some c ∨ "0123456789ABCDEF".toList[value]? = some c

/-- That digits of a base spell a number, the highest first. -/
inductive Digits (base : Nat) : Nat → List Char → Prop where
  | nil : Digits base 0 []
  | cons {d n : Nat} {c : Char} {cs : List Char} (digit : IsDigit d c) (small : d < base)
      (rest : Digits base n cs) : Digits base (d * base ^ cs.length + n) (c :: cs)

instance (value : Nat) (c : Char) : Decidable (IsDigit value c) :=
  inferInstanceAs (Decidable (_ ∨ _))

def letters : List (Char × Char) :=
  [
    ('a', '\x07'), ('b', '\x08'), ('f', '\x0c'), ('n', '\n'), ('r', '\r'), ('t', '\t'),
    ('v', '\x0b'), ('\\', '\\'), ('\'', '\''), ('"', '"')
  ]

inductive SpellsByte (b : UInt8) : List Char → Prop where
  | hexadecimal {digits : List Char} (number : Digits 16 b.toNat digits)
      (two : digits.length = 2) : SpellsByte b ('\\' :: 'x' :: digits)
  | octal {digits : List Char} (number : Digits 8 b.toNat digits)
      (three : digits.length = 3) : SpellsByte b ('\\' :: digits)

inductive Spells (c : Char) : List Char → Prop where
  | itself (plain : c ≠ '\\') : Spells c [c]
  | letter {l : Char} (named : (l, c) ∈ letters) : Spells c ['\\', l]
  | short {digits : List Char} (number : Digits 16 c.toNat digits)
      (four : digits.length = 4) : Spells c ('\\' :: 'u' :: digits)
  | long {digits : List Char} (number : Digits 16 c.toNat digits)
      (eight : digits.length = 8) : Spells c ('\\' :: 'U' :: digits)
  | bytes {pieces : List (List Char)}
      (each : List.Forall₂ SpellsByte (String.utf8EncodeChar c) pieces) :
      Spells c pieces.flatten

theorem digitValue?_of_isDigit {value : Nat} {c : Char} (h : IsDigit value c) :
    digitValue? c = some value := by
  have each : ∀ value < 16,
      "0123456789abcdef".toList[value]?.bind digitValue? = some value ∧
        "0123456789ABCDEF".toList[value]?.bind digitValue? = some value := by
    decide
  rcases h with lower | upper
  · have small : value < 16 := (List.getElem?_eq_some_iff.mp lower).1
    have read := (each value small).1
    rwa [lower] at read
  · have small : value < 16 := (List.getElem?_eq_some_iff.mp upper).1
    have read := (each value small).2
    rwa [upper] at read

/-- A number is read from its digits, whatever stands behind them. -/
theorem leadingNumber?_append {base n : Nat} {cs : List Char} (h : Digits base n cs)
    (rest : List Char) (before : Nat) :
    leadingNumber? base cs.length (cs ++ rest) before = some (before * base ^ cs.length + n) := by
  induction h generalizing before with
  | nil => simp [leadingNumber?]
  | @cons d n c cs digit small _ ih =>
      rw [List.length_cons, List.cons_append, leadingNumber?, digitValue?_of_isDigit digit]
      simp only [small, if_true]
      rw [ih]
      congr 1
      ring

theorem Digits.head {base n : Nat} {c : Char} {cs : List Char} (h : Digits base n (c :: cs)) :
    ∃ d, IsDigit d c := by
  cases h with
  | cons digit _ _ => exact ⟨_, digit⟩

theorem leadingNumber?_digits {base n count : Nat} {cs : List Char} (h : Digits base n cs)
    (length : cs.length = count) (rest : List Char) :
    leadingNumber? base count (cs ++ rest) 0 = some n := by
  rw [← length, leadingNumber?_append h]
  simp

theorem codePoint_toNat (c : Char) : codePoint c.toNat = .ok (Utf8.encodeChar c) := by
  have point := Utf8.codePoint c
  rw [codePoint, if_neg (by omega), if_neg (by omega), if_neg (by omega), Char.ofNat_toNat]

theorem readEscape_letter {l c : Char} (named : (l, c) ∈ letters) (rest : List Char) :
    readEscape l rest = .ok (Utf8.encodeChar c, 0) := by
  have each : ∀ e ∈ letters, e.1 ≠ 'x' ∧ e.1 ≠ 'u' ∧ e.1 ≠ 'U' ∧
      (digitValue? e.1).all (8 ≤ ·) ∧ simpleEscape? e.1 = some e.2 := by
    decide
  obtain ⟨x, u, bigU, digit, simple⟩ := each _ named
  have noNumber : leadingNumber? 8 3 (l :: rest) 0 = none := by
    rw [leadingNumber?]
    cases found : digitValue? l with
    | none => rfl
    | some d =>
        rw [found] at digit
        have large : ¬ d < 8 := by simpa using digit
        simp [large]
  simp only [readEscape, if_neg x, if_neg u, if_neg bigU, noNumber, simple]

theorem readEscape_hexadecimal {b : UInt8} {digits : List Char} (number : Digits 16 b.toNat digits)
    (two : digits.length = 2) (rest : List Char) :
    readEscape 'x' (digits ++ rest) = .ok ([b], 2) := by
  simp only [readEscape, if_true, leadingNumber?_digits number two, UInt8.ofNat_toNat]

theorem readEscape_short {c : Char} {digits : List Char} (number : Digits 16 c.toNat digits)
    (four : digits.length = 4) (rest : List Char) :
    readEscape 'u' (digits ++ rest) = .ok (Utf8.encodeChar c, 4) := by
  simp only [readEscape, leadingNumber?_digits number four, codePoint_toNat]
  rfl

theorem readEscape_long {c : Char} {digits : List Char} (number : Digits 16 c.toNat digits)
    (eight : digits.length = 8) (rest : List Char) :
    readEscape 'U' (digits ++ rest) = .ok (Utf8.encodeChar c, 8) := by
  simp only [readEscape, leadingNumber?_digits number eight, codePoint_toNat]
  rfl

/-- The first octal digit stands where a letter could, and is none. -/
theorem readEscape_octal {b : UInt8} {c : Char} {cs : List Char}
    (number : Digits 8 b.toNat (c :: cs)) (two : cs.length = 2) (rest : List Char) :
    readEscape c (cs ++ rest) = .ok ([b], 2) := by
  obtain ⟨d, digit⟩ := number.head
  have value := digitValue?_of_isDigit digit
  have x : c ≠ 'x' := by rintro rfl; cases value
  have u : c ≠ 'u' := by rintro rfl; cases value
  have bigU : c ≠ 'U' := by rintro rfl; cases value
  have three : (c :: cs).length = 3 := by rw [List.length_cons, two]
  have read := leadingNumber?_digits number three rest
  rw [List.cons_append] at read
  simp only [readEscape, if_neg x, if_neg u, if_neg bigU, read, UInt8.ofNat_toNat]

/-- A body goes on behind an escape where the escape ends. -/
theorem bodyBytes_escape {c : Char} {piece rest : List Char} {bytes : List UInt8}
    (read : readEscape c (piece ++ rest) = .ok (bytes, piece.length)) :
    bodyBytes ('\\' :: c :: (piece ++ rest)) = (bytes ++ ·) <$> bodyBytes rest := by
  rw [bodyBytes, read]
  simp only [List.drop_left]

theorem bodyBytes_byte {b : UInt8} {piece : List Char} (h : SpellsByte b piece)
    (rest : List Char) : bodyBytes (piece ++ rest) = ([b] ++ ·) <$> bodyBytes rest := by
  cases h with
  | hexadecimal number two =>
      exact bodyBytes_escape (two.symm ▸ readEscape_hexadecimal number two rest)
  | @octal digits number three =>
      obtain ⟨c, cs, rfl⟩ := List.exists_cons_of_length_eq_add_one three
      have two : cs.length = 2 := Nat.succ.inj three
      exact bodyBytes_escape (two.symm ▸ readEscape_octal number two rest)

theorem bodyBytes_bytes {bytes : List UInt8} {pieces : List (List Char)}
    (each : List.Forall₂ SpellsByte bytes pieces) (rest : List Char) :
    bodyBytes (pieces.flatten ++ rest) = (bytes ++ ·) <$> bodyBytes rest := by
  induction each with
  | nil => simp
  | cons first _ ih =>
      rw [List.flatten_cons, List.append_assoc, bodyBytes_byte first, ih, Functor.map_map]
      rfl

/-- A character is read from each of its spellings, whatever stands behind it. -/
theorem bodyBytes_append {c : Char} {piece : List Char} (h : Spells c piece) (rest : List Char) :
    bodyBytes (piece ++ rest) = (Utf8.encodeChar c ++ ·) <$> bodyBytes rest := by
  cases h with
  | itself plain =>
      rw [List.singleton_append, bodyBytes]
      rintro _ _ rfl -
      exact plain rfl
  | letter named => exact bodyBytes_escape (readEscape_letter named ([] ++ rest))
  | short number four => exact bodyBytes_escape (four.symm ▸ readEscape_short number four rest)
  | long number eight => exact bodyBytes_escape (eight.symm ▸ readEscape_long number eight rest)
  | bytes each => rw [bodyBytes_bytes each, Utf8.encodeChar_eq]

/-- A text is read from each of its spellings, character by character. -/
theorem bodyBytes_flatten {cs : List Char} {pieces : List (List Char)}
    (each : List.Forall₂ Spells cs pieces) : bodyBytes pieces.flatten = .ok (Utf8.encode cs) := by
  induction each with
  | nil => rw [List.flatten_nil, bodyBytes]; rfl
  | cons first _ ih =>
      rw [List.flatten_cons, bodyBytes_append first, ih]
      rfl

/-- A literal denotes the text that its body spells, in whatever way each character is spelled: as
itself if it is no backslash, by its letter, by its number in four digits or in eight, or by its
bytes, each with two hexadecimal digits or with three octal ones. -/
theorem literal_denotes_spelled_text (s : String) (pieces : List (List Char))
    (spelled : List.Forall₂ Spells s.toList pieces) :
    unescape (String.ofList pieces.flatten) = .ok s := by
  rw [unescape, String.toList_ofList, bodyBytes_flatten spelled]
  change Except.ok (String.ofList (Utf8.decodeLossy (Utf8.encode s.toList))) = _
  rw [Utf8.decodeLossy_encode, String.ofList_toList]

/-- Bytes of one character in both forms with a plain digit behind them, a backslash before an x,
and numbers of both lengths. -/
theorem mixed_spellings_denote_text :
    let s := "é7\\x\n😀"
    let pieces := ["\\xC3\\251".toList, ['7'], ['\\', '\\'], ['x'], "\\u000a".toList,
      "\\U0001F600".toList]
    List.Forall₂ Spells s.toList pieces ∧ unescape (String.ofList pieces.flatten) = .ok s := by
  intro s pieces
  have first : SpellsByte 0xC3 "\\xC3".toList :=
    .hexadecimal (.cons (d := 12) (by decide) (by decide)
      (.cons (d := 3) (by decide) (by decide) .nil)) rfl
  have second : SpellsByte 0xA9 "\\251".toList :=
    .octal (.cons (d := 2) (by decide) (by decide) (.cons (d := 5) (by decide) (by decide)
      (.cons (d := 1) (by decide) (by decide) .nil))) rfl
  have lineFeed : Digits 16 0xA "000a".toList := by
    have number : Digits 16 _ "000a".toList :=
      .cons (d := 0) (by decide) (by decide) (.cons (d := 0) (by decide) (by decide)
        (.cons (d := 0) (by decide) (by decide) (.cons (d := 10) (by decide) (by decide) .nil)))
    simpa using number
  have face : Digits 16 0x1F600 "0001F600".toList := by
    have number : Digits 16 _ "0001F600".toList :=
      .cons (d := 0) (by decide) (by decide) (.cons (d := 0) (by decide) (by decide)
        (.cons (d := 0) (by decide) (by decide) (.cons (d := 1) (by decide) (by decide)
        (.cons (d := 15) (by decide) (by decide) (.cons (d := 6) (by decide) (by decide)
        (.cons (d := 0) (by decide) (by decide) (.cons (d := 0) (by decide) (by decide) .nil)))))))
    simpa using number
  have accented : Spells 'é' "\\xC3\\251".toList := by
    have encoded : String.utf8EncodeChar 'é' = [0xC3, 0xA9] := by decide
    refine @Spells.bytes 'é' ["\\xC3".toList, "\\251".toList] ?_
    rw [encoded]
    exact .cons first (.cons second .nil)
  have spelled : List.Forall₂ Spells s.toList pieces := by
    have chars : s.toList = ['é', '7', '\\', 'x', '\n', '😀'] := by decide
    rw [chars]
    exact .cons accented (.cons (.itself (by decide)) (.cons (.letter (by decide))
      (.cons (.itself (by decide)) (.cons (.short lineFeed rfl) (.cons (.long face rfl) .nil)))))
  exact ⟨spelled, literal_denotes_spelled_text s pieces spelled⟩

end TestRoster.Quoted
