/-!
Splitting at a separator, and joining again.
-/
namespace TestRoster

/-- The parts between separators. There is one more than there are separators. -/
def splitAtChar (separator : Char) : List Char → List (List Char)
  | [] => [[]]
  | c :: cs =>
      if c = separator then [] :: splitAtChar separator cs
      else
        match splitAtChar separator cs with
        | [] => [[c]]
        | part :: parts => (c :: part) :: parts

def splitText (separator : Char) (s : String) : List String :=
  (splitAtChar separator s.toList).map String.ofList

/-- The lines of a text that ends lines with a line feed. A last line without one counts too. -/
def splitLines (cs : List Char) : List (List Char) :=
  let parts := splitAtChar '\n' cs
  if parts.getLast? = some [] then parts.dropLast else parts

def unifyLineEnds : List Char → List Char
  | [] => []
  | '\r' :: '\n' :: cs => '\n' :: unifyLineEnds cs
  | c :: cs => (if c = '\r' then '\n' else c) :: unifyLineEnds cs

def isLineEnd (c : Char) : Bool :=
  c == '\n' || c == '\r'

def isLineBreak (c : Char) : Bool :=
  ['\n', '\r', '\x0b', '\x0c', '\x1c', '\x1d', '\x1e', '\u0085', '\u2028', '\u2029'].contains c

/-- The lines of a text whatever ends them; a carriage return and a line feed after it are one
end. -/
def breakLines : List Char → List (List Char)
  | [] => []
  | '\r' :: '\n' :: cs => [] :: breakLines cs
  | c :: cs =>
      if isLineBreak c then [] :: breakLines cs
      else
        match breakLines cs with
        | [] => [[c]]
        | line :: lines => (c :: line) :: lines

end TestRoster
