import TestRoster.Text.Utf8

/-!
A source file as bytes, with texts and lines of its parts.
-/
namespace TestRoster.Go

structure Source where
  bytes : List UInt8

namespace Source

def ofString (s : String) : Source :=
  ⟨Utf8.encode s.toList⟩

def text (src : Source) (start stop : Nat) : String :=
  String.ofList (Utf8.decodeLossy ((src.bytes.drop start).take (stop - start)))

/-- The line of a byte position. Lines count from one and end at a line feed. -/
def line (src : Source) (position : Nat) : Nat :=
  (src.bytes.take position).count 0x0A + 1

end Source

end TestRoster.Go
