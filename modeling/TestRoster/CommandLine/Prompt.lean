import TestRoster.CommandLine.Invocation
import TestRoster.Text.Numeral

/-!
Choosing by number.

A prompt is asked again until a number in range is typed; where no line is left to be read, the
choice is aborted.
-/
namespace TestRoster

inductive ChoiceFault where
  | notANumber (typed : String)
  | notInRange (n : Int) (last : Nat)
  deriving DecidableEq, Repr

def ChoiceFault.message : ChoiceFault → String
  | .notANumber typed => literalText typed ++ " is not a valid integer range."
  | .notInRange n last =>
      toString n ++ " is not in the range 1<=x<=" ++ toString last ++ "."

/-- The choice that a typed text names. The choices are numbered from one. -/
def choiceOf (choices : Nat) (typed : String) : Except ChoiceFault (Fin choices) :=
  match Numeral.parse typed.toList with
  | .error _ => .error (.notANumber typed)
  | .ok n =>
      if h : 1 ≤ n ∧ n ≤ choices then .ok ⟨n.toNat - 1, by omega⟩
      else .error (.notInRange n choices)

/-- Where asking leads with some lines to read. -/
def askWith (prompt : String) (choices : Nat) :
    List String → Answer choices × List Shown × List String
  | [] => (.aborted prompt, [], [])
  | typed :: rest =>
      let answered := Shown.answered prompt typed
      if typed = "" then
        let (answer, shown, left) := askWith prompt choices rest
        (answer, answered :: shown, left)
      else
        match choiceOf choices typed with
        | .ok index => (.chosen index, [answered], rest)
        | .error fault =>
            let (answer, shown, left) := askWith prompt choices rest
            (answer, answered :: .line ("Error: " ++ fault.message) :: shown, left)

end TestRoster
