import TestRoster.Discovery.Entry

/-!
Drawing tests as lines of text, nested or flat.

The names below one file form a forest. Inserting a test adds the parts of its name that are not
there yet; parts that are there keep their place.
-/
namespace TestRoster

/-- A list of named trees: a name, what is below it, and what comes after it. -/
inductive Forest where
  | nil
  | cons (name : String) (below next : Forest)
  deriving DecidableEq, Repr, Inhabited

namespace Forest

def spine : List String → Forest
  | [] => .nil
  | name :: rest => .cons name (spine rest) .nil

def insert : Forest → List String → Forest
  | f, [] => f
  | .nil, path => spine path
  | .cons n below next, name :: rest =>
      if n = name then .cons n (below.insert rest) next
      else .cons n below (next.insert (name :: rest))

def draw (indent : String) : Forest → List String
  | .nil => []
  | .cons name below next =>
      let last := next == .nil
      (indent ++ (if last then "└── " else "├── ") ++ name) ::
        (below.draw (indent ++ (if last then "    " else "│   ")) ++ next.draw indent)

end Forest

/-- Adds a test to the forests of the files, in the order in which the files first occur. -/
def addToFile (t : TestCase) : List (String × Forest) → List (String × Forest)
  | [] => [(t.file, Forest.nil.insert t.segments)]
  | (file, f) :: rest =>
      if file = t.file then (file, f.insert t.segments) :: rest
      else (file, f) :: addToFile t rest

def fileForests (tests : List TestCase) : List (String × Forest) :=
  tests.foldl (fun files t => addToFile t files) []

def treeLines (tests : List TestCase) : List String :=
  (fileForests tests).flatMap fun f => f.1 :: f.2.draw ""

/-- Tests as a tree, one block per file. -/
def drawTree (tests : List TestCase) : String :=
  String.intercalate "\n" (treeLines tests)

def TestCase.location (t : TestCase) : String :=
  t.file ++ ":" ++ toString t.line

/-- One test per line, with its place if asked for. -/
def drawList (tests : List TestCase) (located : Bool) : String :=
  String.intercalate "\n"
    (tests.map fun t => if located then t.name ++ "\t" ++ t.location else t.name)

end TestRoster
