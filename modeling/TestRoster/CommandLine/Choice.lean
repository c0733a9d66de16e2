import TestRoster.Run.Execute
import TestRoster.Text.Lowercase

/-!
Letting the user choose.

The choices are shown with numbers, and the user types one of the numbers or gives up.
-/
namespace TestRoster

def numberLabel (n : Nat) : String :=
  let digits := toString n
  String.ofList (List.replicate (4 - digits.length) ' ') ++ digits

namespace Act

def ask (label : String) (choices : Nat) : Act (Fin choices) := do
  let s ← get
  let (answer, shown, left) := s.library.terminal.ask label choices s.input
  set { s with shown := s.shown ++ shown, input := left }
  match answer with
  | .chosen index => return index
  | .aborted prompt => throw (.aborted prompt)

def echoNumbered (lines : List String) : Act Unit :=
  (lines.zipIdx 1).forM fun (line, n) => echo (numberLabel n ++ "  " ++ line)

def pick {α : Type} (label : String) (choices : List α) (describe : α → String) : Act α := do
  echoNumbered (choices.map describe)
  return choices.get (← ask label choices.length)

end Act

/-- Whether a test's name contains a text, in any case. -/
def TestCase.matchesFilter (filter : String) (t : TestCase) : Bool :=
  occursIn (lowercase filter).toList (lowercase t.name).toList

/-- Lets the user pick a test whose name contains a text. If there is one only, it is picked. -/
def Act.selectTest (tests : List TestCase) (label filter : String) : Act TestCase := do
  match tests.filter (·.matchesFilter filter) with
  | [] => throw (.noMatch filter)
  | [t] => return t
  | candidates =>
      pick label candidates fun t =>
        t.name ++ "  (" ++ t.file ++ ":" ++ toString t.line ++ ")"

/-- What the terminal shows: lines without control sequences, prompts with what was typed. -/
def Shown.text : Shown → String
  | .line s => withoutSequences s ++ "\n"
  | .answered prompt typed => prompt ++ typed ++ "\n"

def shownText (shown : List Shown) : String :=
  String.join (shown.map Shown.text)

end TestRoster
