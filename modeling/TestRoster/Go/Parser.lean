import TestRoster.Go.Cst
import TestRoster.Go.Token

/-!
Parsers on tokens.

A parser takes tokens from the front and builds a concrete tree; a failure is the position where no
rule could go on. Rules that contain one another meet in `Rules`: each of them may use the rules of
the next level down, and since no rule enters a lower level without having taken a token, as many
levels as there are tokens suffice.
-/
namespace TestRoster.Go

/-- The tokens to come, and the end of the last token taken. -/
structure Input where
  tokens : List Token
  stop : Nat

abbrev Parser := StateT Input (Except Nat)

namespace Parser

variable {α β : Type}

def position : Parser Nat := do
  let s ← get
  match s.tokens with
  | t :: _ => return t.start
  | [] => return s.stop

def fail : Parser α := do
  throw (← position)

/-- Tries `p`, and `q` at the same place if `p` fails. -/
def attempt (p q : Parser α) : Parser α := fun s =>
  match p s with
  | .ok r => .ok r
  | .error e =>
      match q s with
      | .ok r => .ok r
      | .error f => .error (max e f)

def peek? : Parser (Option Token) := do
  return (← get).tokens.head?

/-- The kind of the next token, nothing at the end. -/
def kind : Parser String := do
  return ((← peek?).map (·.kind)).getD ""

def kindAfter : Parser String := do
  return (((← get).tokens[1]?).map (·.kind)).getD ""

def isAt (k : String) : Parser Bool := do
  return (← kind) == k

def isAfterLine : Parser Bool := do
  return ((← peek?).map (·.newline)).getD true

def next : Parser Token := do
  let s ← get
  match s.tokens with
  | [] => fail
  | t :: rest =>
      set (Input.mk rest t.stop)
      return t

def token (k : String) : Parser Token := do
  if ← isAt k then next else fail

/-- Takes a token of this kind if it comes next. -/
def accept (k : String) : Parser Bool := do
  if ← isAt k then
    let _ ← next
    return true
  else return false

/-- Repeats a step until it gives nothing. No step count beyond the number of tokens is needed. -/
def repeatStep (step : α → Parser (Option α)) : Nat → α → Parser α
  | 0, a => pure a
  | n + 1, a => do
      match ← step a with
      | some b => repeatStep step n b
      | none => return a

def loop (step : α → Parser (Option α)) (a : α) : Parser α := do
  repeatStep step ((← get).tokens.length + 1) a

/-- One `p` or more, with separators of this kind between them. -/
def separated (separator : String) (p : Parser α) : Parser (List α) := do
  let first ← p
  let items ← loop (fun items => do
    if ← accept separator then return some ((← p) :: items) else return none) [first]
  return items.reverse

/-- Any number of `p` up to a closing token, with commas between them and possibly one at the
end. Takes the closing token. -/
def listUntil (closing : String) (p : Parser α) : Parser (List α) := do
  let items ← loop (fun items => do
    if ← isAt closing then return none
    else
      let item ← p
      if !(← isAt closing) then
        let _ ← token ","
      return some (item :: items)) []
  let _ ← token closing
  return items.reverse

/-- A node from `start` to the last token taken. -/
def node (kind : String) (start : Nat) (children : List Cst) : Parser Cst := do
  return .node { kind := kind, start := start, stop := (← get).stop } children

def leaf (kind : String) (t : Token) : Cst :=
  .node { kind := kind, start := t.start, stop := t.stop } []

def mark (t : Token) : Cst :=
  .node { kind := t.kind, start := t.start, stop := t.stop, anonymous := true } []

def skipBrackets (opening closing : String) : Parser Unit := do
  let _ ← token opening
  let _ ← loop (fun (depth : Nat) => do
    if depth = 0 then return none
    else
      let t ← next
      if t.kind == opening then return some (depth + 1)
      else if t.kind == closing then return some (depth - 1)
      else return some depth) 1

/-- A semicolon or the end of a line. Before one of `closing` neither is needed. -/
def terminator (closing : List String) : Parser Unit := do
  if ← isAfterLine then return
  else if ← accept ";" then return
  else if closing.contains (← kind) then return
  else fail

end Parser

def Cst.under (field : String) : Cst → Cst
  | .node i cs => .node { i with field := some field } cs

def Cst.kind (c : Cst) : String := c.info.kind

def Cst.start (c : Cst) : Nat := c.info.start

structure Context where
  /-- Whether a brace after a type opens a literal, and not a block. -/
  literals : Bool
  /-- Whether the end of a line ends the expression. -/
  lines : Bool

namespace Context

def enclosed : Context := ⟨true, false⟩

def plain : Context := ⟨true, true⟩

def header : Context := ⟨false, true⟩

def continues (ctx : Context) : Parser Bool := do
  if (← Parser.peek?).isNone then return false
  else return !(ctx.lines && (← Parser.isAfterLine))

end Context

structure Rules where
  type : Parser Cst
  unary : Context → Parser Cst
  expression : Context → Parser Cst
  literalValue : Parser Cst
  block : Parser Cst
  statement : Parser Cst

def Rules.bottom : Rules :=
  ⟨Parser.fail, fun _ => Parser.fail, fun _ => Parser.fail, Parser.fail, Parser.fail, Parser.fail⟩

end TestRoster.Go
