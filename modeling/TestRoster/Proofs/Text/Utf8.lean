import TestRoster.Text.Utf8

/-!
Texts survive being written as bytes.
-/
namespace TestRoster.Utf8

theorem toNat_ofNat {n : Nat} (small : n < 256) : (UInt8.ofNat n).toNat = n := by
  simp [UInt8.toNat_ofNat', Nat.mod_eq_of_lt small]

/-- A code point lies below the surrogates or above them. -/
theorem codePoint (c : Char) : c.toNat < 0xD800 ∨ 0xE000 ≤ c.toNat ∧ c.toNat < 0x110000 := by
  have valid : c.toNat.isValidChar := c.valid
  rcases valid with low | ⟨above, high⟩
  · exact .inl low
  · exact .inr ⟨Nat.lt_of_lt_of_le (by decide) (Nat.succ_le_of_lt above), high⟩

/-- A continuation byte within bounds brings six bits. -/
theorem readTail_step {n count low high bits good : Nat} {rest : List UInt8}
    (above : low ≤ 0x80 + n % 64) (below : 0x80 + n % 64 ≤ high) :
    readTail (UInt8.ofNat (0x80 + n % 64) :: rest) (count + 1) low high bits good =
      readTail rest count 0x80 0xBF (bits * 64 + n % 64) (good + 1) := by
  have byte : (UInt8.ofNat (0x80 + n % 64)).toNat = 0x80 + n % 64 := toNat_ofNat (by omega)
  have six : (0x80 + n % 64) % 64 = n % 64 := by omega
  rw [readTail, byte, if_pos ⟨above, below⟩, six]

theorem lead_two {n : Nat} (above : 0x80 ≤ n) (below : n < 0x800) :
    lead? (UInt8.ofNat (0xC0 + n / 64)) = some ⟨1, 0x80, 0xBF, n / 64⟩ := by
  have byte : (UInt8.ofNat (0xC0 + n / 64)).toNat = 0xC0 + n / 64 := toNat_ofNat (by omega)
  simp only [lead?, byte]
  have bits : 0xC0 + n / 64 - 0xC0 = n / 64 := by omega
  rw [if_neg (by omega), if_neg (by omega), if_pos (by omega), bits]

/-- The first continuation byte of three is bounded so that no form is overlong and no surrogate. -/
theorem lead_three {n : Nat} (above : 0x800 ≤ n) (below : n < 0x10000)
    (scalar : n < 0xD800 ∨ 0xE000 ≤ n) :
    ∃ low high, lead? (UInt8.ofNat (0xE0 + n / 4096)) = some ⟨2, low, high, n / 4096⟩ ∧
      low ≤ 0x80 + n / 64 % 64 ∧ 0x80 + n / 64 % 64 ≤ high := by
  have byte : (UInt8.ofNat (0xE0 + n / 4096)).toNat = 0xE0 + n / 4096 := toNat_ofNat (by omega)
  simp only [lead?, byte]
  rw [if_neg (by omega), if_neg (by omega), if_neg (by omega)]
  by_cases first : 0xE0 + n / 4096 = 0xE0
  · have bits : n / 4096 = 0 := by omega
    rw [if_pos first, bits]
    exact ⟨0xA0, 0xBF, rfl, by omega, by omega⟩
  · rw [if_neg first]
    by_cases surrogates : 0xE0 + n / 4096 = 0xED
    · have bits : n / 4096 = 13 := by omega
      rw [if_pos surrogates, bits]
      exact ⟨0x80, 0x9F, rfl, by omega, by omega⟩
    · have bits : 0xE0 + n / 4096 - 0xE0 = n / 4096 := by omega
      rw [if_neg surrogates, if_pos (by omega), bits]
      exact ⟨0x80, 0xBF, rfl, by omega, by omega⟩

theorem lead_four {n : Nat} (above : 0x10000 ≤ n) (below : n < 0x110000) :
    ∃ low high, lead? (UInt8.ofNat (0xF0 + n / 262144)) = some ⟨3, low, high, n / 262144⟩ ∧
      low ≤ 0x80 + n / 4096 % 64 ∧ 0x80 + n / 4096 % 64 ≤ high := by
  have byte : (UInt8.ofNat (0xF0 + n / 262144)).toNat = 0xF0 + n / 262144 := toNat_ofNat (by omega)
  simp only [lead?, byte]
  rw [if_neg (by omega), if_neg (by omega), if_neg (by omega), if_neg (by omega),
    if_neg (by omega), if_neg (by omega)]
  by_cases first : 0xF0 + n / 262144 = 0xF0
  · have bits : n / 262144 = 0 := by omega
    rw [if_pos first, bits]
    exact ⟨0x90, 0xBF, rfl, by omega, by omega⟩
  · rw [if_neg first]
    by_cases last : 0xF0 + n / 262144 < 0xF4
    · have bits : 0xF0 + n / 262144 - 0xF0 = n / 262144 := by omega
      rw [if_pos last, bits]
      exact ⟨0x80, 0xBF, rfl, by omega, by omega⟩
    · have bits : n / 262144 = 4 := by omega
      rw [if_neg last, if_pos (by omega), bits]
      exact ⟨0x80, 0x8F, rfl, by omega, by omega⟩

/-- The bytes of a character are read as this character. -/
theorem next_encodeChar (c : Char) (rest : List UInt8) :
    ∃ b tail, encodeChar c = b :: tail ∧ next b (tail ++ rest) = .ok (c, tail.length) := by
  have back : Char.ofNat c.toNat = c := Char.ofNat_toNat c
  simp only [encodeChar]
  by_cases one : c.toNat < 0x80
  · rw [if_pos one]
    refine ⟨_, _, rfl, ?_⟩
    have byte : (UInt8.ofNat c.toNat).toNat = c.toNat := toNat_ofNat (by omega)
    simp [next, lead?, byte, one, readTail, back]
  · rw [if_neg one]
    by_cases two : c.toNat < 0x800
    · rw [if_pos two]
      refine ⟨_, _, rfl, ?_⟩
      simp only [next, lead_two (Nat.le_of_not_lt one) two, Nat.div_one, List.cons_append,
        List.nil_append]
      rw [readTail_step (by omega) (by omega), readTail]
      have bits : c.toNat / 64 * 64 + c.toNat % 64 = c.toNat := by omega
      simp [bits, back]
    · rw [if_neg two]
      by_cases three : c.toNat < 0x10000
      · rw [if_pos three]
        refine ⟨_, _, rfl, ?_⟩
        have scalar := (codePoint c).imp_right And.left
        obtain ⟨low, high, lead, above, below⟩ := lead_three (Nat.le_of_not_lt two) three scalar
        simp only [next, lead, Nat.div_one, List.cons_append, List.nil_append]
        rw [readTail_step above below, readTail_step (by omega) (by omega), readTail]
        have bits : (c.toNat / 4096 * 64 + c.toNat / 64 % 64) * 64 + c.toNat % 64 =
          c.toNat := by omega
        simp [bits, back]
      · rw [if_neg three]
        refine ⟨_, _, rfl, ?_⟩
        have top : c.toNat < 0x110000 := by
          have point := codePoint c
          omega
        obtain ⟨low, high, lead, above, below⟩ := lead_four (Nat.le_of_not_lt three) top
        simp only [next, lead, Nat.div_one, List.cons_append, List.nil_append]
        rw [readTail_step above below, readTail_step (by omega) (by omega),
          readTail_step (by omega) (by omega), readTail]
        have bits : ((c.toNat / 262144 * 64 + c.toNat / 4096 % 64) * 64 + c.toNat / 64 % 64) * 64 +
            c.toNat % 64 = c.toNat := by omega
        simp [bits, back]

theorem encode_append (cs ds : List Char) : encode (cs ++ ds) = encode cs ++ encode ds := by
  simp [encode]

/-- What is read first from the bytes of a text. -/
theorem next_encode_cons (c : Char) (cs : List Char) :
    ∃ b tail, encode (c :: cs) = b :: (tail ++ encode cs) ∧
      next b (tail ++ encode cs) = .ok (c, tail.length) := by
  obtain ⟨b, tail, bytes, read⟩ := next_encodeChar c (encode cs)
  refine ⟨b, tail, ?_, read⟩
  rw [encode, List.flatMap_cons, bytes]
  rfl

theorem decodeFrom_encode (cs : List Char) (position : Nat) :
    decodeFrom position (encode cs) = .ok cs := by
  induction cs generalizing position with
  | nil => rw [encode, List.flatMap_nil, decodeFrom]
  | cons c cs ih =>
      obtain ⟨b, tail, bytes, read⟩ := next_encode_cons c cs
      rw [bytes, decodeFrom, read]
      simp only [List.drop_left, ih]
      rfl

/-- A text is read back from its bytes. -/
theorem decode?_encode (cs : List Char) : decode? (encode cs) = .ok cs :=
  decodeFrom_encode cs 0

/-- Where nothing is ill-formed nothing is replaced. -/
theorem decodeLossy_encode (cs : List Char) : decodeLossy (encode cs) = cs := by
  rw [decodeLossy]
  induction cs with
  | nil => rw [encode, List.flatMap_nil, decodeSized, List.map_nil]
  | cons c cs ih =>
      obtain ⟨b, tail, bytes, read⟩ := next_encode_cons c cs
      rw [bytes, decodeSized, read]
      simp only [List.drop_left, List.map_cons, ih]

/-- The bytes of a character are those that the standard library gives it. -/
theorem encodeChar_eq (c : Char) : encodeChar c = String.utf8EncodeChar c := by
  have top : c.toNat < 0x110000 := by
    have point := codePoint c
    omega
  have same : c.val.toNat = c.toNat := rfl
  have tail : ∀ n, UInt8.ofNat (0x80 + n % 64) = UInt8.ofNat (n % 64 + 0x80) := fun n => by
    rw [Nat.add_comm]
  simp only [encodeChar, String.utf8EncodeChar, same, Nat.div_one, tail]
  by_cases one : c.toNat < 0x80
  · rw [if_pos one, if_pos (by omega)]
  · rw [if_neg one]
    by_cases two : c.toNat < 0x800
    · have lead : 0xC0 + c.toNat / 64 = c.toNat / 64 % 32 + 192 := by omega
      rw [if_pos two, lead, if_neg (by omega), if_pos (by omega)]
    · rw [if_neg two]
      by_cases three : c.toNat < 0x10000
      · have lead : 0xE0 + c.toNat / 4096 = c.toNat / 4096 % 16 + 224 := by omega
        rw [if_pos three, lead, if_neg (by omega), if_neg (by omega), if_pos (by omega)]
      · have lead : 0xF0 + c.toNat / 262144 = c.toNat / 262144 % 8 + 240 := by omega
        rw [if_neg three, lead, if_neg (by omega), if_neg (by omega), if_neg (by omega)]

end TestRoster.Utf8
