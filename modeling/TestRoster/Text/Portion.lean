import TestRoster.Text.Split
import TestRoster.Text.Utf8

/-!
Texts that are read line by line.

Bytes are decoded in portions, each when the lines before it are used up. A character that is cut
off at the end of a portion waits for the next one. A flaw therefore shows only when its portion is
reached, and the lines that ended before are read all the same.
-/
namespace TestRoster

namespace Utf8

/-- What bytes hold when more may follow: their characters, and the bytes of a last one that is not
complete. -/
def decodeOpen (position : Nat) : List UInt8 → Except DecodeFault (List Char × List UInt8)
  | [] => .ok ([], [])
  | b :: rest =>
      match next b rest with
      | .ok (c, n) =>
          (fun read => (c :: read.1, read.2)) <$> decodeOpen (position + n + 1) (rest.drop n)
      | .error (.unexpectedEnd, _) => .ok ([], b :: rest)
      | .error (flaw, n) => .error ⟨position, b :: rest.take n, flaw⟩
  termination_by bs => bs.length
  decreasing_by simp only [List.length_drop, List.length_cons]; omega

def portion : Nat := 8192

/-- The characters of the portions before the first flaw, and this flaw; `left` are the bytes that
wait for the next portion. Positions count from the first byte that waits. -/
def decodePortions (left bytes : List UInt8) : List Char × Option DecodeFault :=
  match bytes with
  | [] =>
      match decode? left with
      | .ok cs => (cs, none)
      | .error fault => ([], some fault)
  | b :: rest =>
      match decodeOpen 0 (left ++ (b :: rest).take portion) with
      | .ok (cs, left) =>
          let (more, fault) := decodePortions left ((b :: rest).drop portion)
          (cs ++ more, fault)
      | .error fault => ([], some fault)
  termination_by bytes.length
  decreasing_by simp only [portion, List.length_drop, List.length_cons]; omega

end Utf8

/-- The lines of a text that goes on: those that are ended. A carriage return at the very end may be
half of a line end. -/
def endedLines (cs : List Char) : List (List Char) :=
  let cs := if cs.getLast? = some '\r' then cs.dropLast else cs
  (splitAtChar '\n' (unifyLineEnds cs)).dropLast

def linesOf (bytes : List UInt8) : List (List Char) × Option Utf8.DecodeFault :=
  match Utf8.decodePortions [] bytes with
  | (cs, none) => (splitLines (unifyLineEnds cs), none)
  | (cs, some fault) => (endedLines cs, some fault)

end TestRoster
