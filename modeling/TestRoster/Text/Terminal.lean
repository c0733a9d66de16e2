/-!
Colours on a terminal, and how a text looks without them.
-/
namespace TestRoster

def escapeChar : Char := '\x1b'

def redCode : String := "31"

def greenCode : String := "32"

def coloured (code s : String) : String :=
  String.ofList (escapeChar :: '[' :: code.toList ++ 'm' :: s.toList ++ [escapeChar, '[', '0', 'm'])

def isSequenceParameter (c : Char) : Bool :=
  c == ';' || c == '?' || ('0' ≤ c && c ≤ '9')

def isSequenceEnd (c : Char) : Bool :=
  ('a' ≤ c && c ≤ 'z') || ('A' ≤ c && c ≤ 'Z')

/-- How many characters after an opening bracket belong to a control sequence: parameters and one
letter. -/
def sequenceLength? (cs : List Char) : Option Nat :=
  let parameters := cs.takeWhile isSequenceParameter
  match cs.drop parameters.length with
  | c :: _ => if isSequenceEnd c then some (parameters.length + 1) else none
  | [] => none

/-- A text without its control sequences; `skip` characters of one that has begun are left out. -/
def plainFrom : Nat → List Char → List Char
  | _, [] => []
  | skip + 1, _ :: rest => plainFrom skip rest
  | 0, c :: rest =>
      if c = escapeChar then
        match rest with
        | '[' :: tail =>
            match sequenceLength? tail with
            | some n => plainFrom (n + 1) rest
            | none => c :: plainFrom 0 rest
        | _ => c :: plainFrom 0 rest
      else c :: plainFrom 0 rest

def withoutSequences (s : String) : String :=
  String.ofList (plainFrom 0 s.toList)

end TestRoster
