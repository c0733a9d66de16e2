/-!
UTF-8 as a total code on bytes.

`encode` writes characters as bytes. `decodeLossy` reads any bytes and puts one replacement
character for each maximal ill-formed part; `decode?` reads well-formed bytes only and says where
and why other bytes stop being a text. Both readers take the same step, `next`.
-/
namespace TestRoster.Utf8

def encodeChar (c : Char) : List UInt8 :=
  let n := c.toNat
  let tail (shift : Nat) : UInt8 := UInt8.ofNat (0x80 + n / shift % 64)
  if n < 0x80 then [UInt8.ofNat n]
  else if n < 0x800 then [UInt8.ofNat (0xC0 + n / 64), tail 1]
  else if n < 0x10000 then [UInt8.ofNat (0xE0 + n / 4096), tail 64, tail 1]
  else [UInt8.ofNat (0xF0 + n / 262144), tail 4096, tail 64, tail 1]

def encode (cs : List Char) : List UInt8 :=
  cs.flatMap encodeChar

inductive Flaw where
  | invalidStart
  | invalidContinuation
  | unexpectedEnd
  deriving DecidableEq, Repr

/-- What a lead byte announces: how many bytes follow, the range of the first of them, and the
bits it brings to the code point. -/
structure Lead where
  tail : Nat
  low : Nat
  high : Nat
  bits : Nat

/-- The ranges leave out overlong forms, surrogates and code points above 10FFFF. -/
def lead? (b : UInt8) : Option Lead :=
  let n := b.toNat
  if n < 0x80 then some ⟨0, 0, 0, n⟩
  else if n < 0xC2 then none
  else if n < 0xE0 then some ⟨1, 0x80, 0xBF, n - 0xC0⟩
  else if n = 0xE0 then some ⟨2, 0xA0, 0xBF, 0⟩
  else if n = 0xED then some ⟨2, 0x80, 0x9F, 13⟩
  else if n < 0xF0 then some ⟨2, 0x80, 0xBF, n - 0xE0⟩
  else if n = 0xF0 then some ⟨3, 0x90, 0xBF, 0⟩
  else if n < 0xF4 then some ⟨3, 0x80, 0xBF, n - 0xF0⟩
  else if n = 0xF4 then some ⟨3, 0x80, 0x8F, 4⟩
  else none

/-- Reads `count` continuation bytes, the first of them within `low` and `high`, onto the bits read
so far. A failure carries the number of bytes that were still good. -/
def readTail (bs : List UInt8) (count low high bits good : Nat) : Except (Flaw × Nat) Nat :=
  match count, bs with
  | 0, _ => .ok bits
  | _ + 1, [] => .error (.unexpectedEnd, good)
  | count + 1, b :: rest =>
      if low ≤ b.toNat ∧ b.toNat ≤ high then
        readTail rest count 0x80 0xBF (bits * 64 + b.toNat % 64) (good + 1)
      else .error (.invalidContinuation, good)

/-- One reading step at lead byte `b`: the character there, or the flaw, each with the number of
bytes of `rest` that belong to it. -/
def next (b : UInt8) (rest : List UInt8) : Except (Flaw × Nat) (Char × Nat) :=
  match lead? b with
  | none => .error (.invalidStart, 0)
  | some l =>
      match readTail rest l.tail l.low l.high l.bits 0 with
      | .ok n => .ok (Char.ofNat n, l.tail)
      | .error e => .error e

/-- Each character with the number of bytes it was read from. An ill-formed part is read as one
replacement character. -/
def decodeSized : List UInt8 → List (Char × Nat)
  | [] => []
  | b :: rest =>
      match next b rest with
      | .ok (c, n) => (c, n + 1) :: decodeSized (rest.drop n)
      | .error (_, n) => ('\uFFFD', n + 1) :: decodeSized (rest.drop n)
  termination_by bs => bs.length
  decreasing_by all_goals (simp only [List.length_drop, List.length_cons]; omega)

def decodeLossy (bs : List UInt8) : List Char :=
  (decodeSized bs).map Prod.fst

/-- Where bytes stop being a text: the position and the bytes of the first ill-formed part. -/
structure DecodeFault where
  start : Nat
  bytes : List UInt8
  flaw : Flaw
  deriving DecidableEq, Repr

def decodeFrom (position : Nat) : List UInt8 → Except DecodeFault (List Char)
  | [] => .ok []
  | b :: rest =>
      match next b rest with
      | .ok (c, n) => (c :: ·) <$> decodeFrom (position + n + 1) (rest.drop n)
      | .error (flaw, n) => .error ⟨position, b :: rest.take n, flaw⟩
  termination_by bs => bs.length
  decreasing_by all_goals (simp only [List.length_drop, List.length_cons]; omega)

def decode? (bs : List UInt8) : Except DecodeFault (List Char) :=
  decodeFrom 0 bs

def hexDigit (n : Nat) : Char :=
  if n < 10 then Char.ofNat (48 + n) else Char.ofNat (87 + n)

def Flaw.message : Flaw → String
  | .invalidStart => "invalid start byte"
  | .invalidContinuation => "invalid continuation byte"
  | .unexpectedEnd => "unexpected end of data"

/-- A single byte is named by its value, several by their positions. -/
def DecodeFault.message (e : DecodeFault) : String :=
  let place := match e.bytes with
    | [b] => "byte 0x" ++ String.ofList [hexDigit (b.toNat / 16), hexDigit (b.toNat % 16)] ++
        " in position " ++ toString e.start
    | bs => "bytes in position " ++ toString e.start ++ "-" ++ toString (e.start + bs.length - 1)
  "'utf-8' codec can't decode " ++ place ++ ": " ++ e.flaw.message

end TestRoster.Utf8
