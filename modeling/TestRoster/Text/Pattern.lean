/-!
Regular expressions that match one text literally.
-/
namespace TestRoster

/-- Characters with a meaning in regular expressions, and blanks, which some dialects skip. -/
def patternSpecials : List Char :=
  ['(', ')', '[', ']', '\x7b', '\x7d', '?', '*', '+', '-', '|', '^', '$', '\\', '.', '&', '~', '#',
    ' ', '\t', '\n', '\r', '\x0b', '\x0c']

def escapePatternChar (c : Char) : List Char :=
  if patternSpecials.contains c then ['\\', c] else [c]

/-- A text with a backslash before every special character. -/
def escapePattern (cs : List Char) : List Char :=
  cs.flatMap escapePatternChar

end TestRoster
