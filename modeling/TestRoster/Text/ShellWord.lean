/-!
Words of a shell command.

A word of safe characters is written as it is. Any other word stands between single quotes, where
every character but the quote itself is literal; a quote leaves them, stands between double quotes,
and enters them again.
-/
namespace TestRoster

def isShellSafe (c : Char) : Bool :=
  ('a' ≤ c && c ≤ 'z') || ('A' ≤ c && c ≤ 'Z') || ('0' ≤ c && c ≤ '9') ||
    ['_', '@', '%', '+', '=', ':', ',', '.', '/', '-'].contains c

def shellQuotedChar (c : Char) : List Char :=
  if c = '\'' then ['\'', '"', '\'', '"', '\''] else [c]

def shellWord (s : String) : String :=
  let cs := s.toList
  if cs ≠ [] ∧ cs.all isShellSafe then s
  else String.ofList ('\'' :: cs.flatMap shellQuotedChar ++ ['\''])

def shellLine (args : List String) : String :=
  String.intercalate " " (args.map shellWord)

end TestRoster
