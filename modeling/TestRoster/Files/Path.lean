import TestRoster.Text.Split

/-!
File paths.

A path is a list of names after none, one or two slashes: exactly two slashes in front are kept, any
other number counts as one. Empty names and single points are left out; double points stay, since
what they mean depends on the files. `Path.normalize` takes them out by name alone.
-/
namespace TestRoster

/-- A path. `slashes` is zero for a relative path. -/
structure Path where
  slashes : Nat
  names : List String
  deriving DecidableEq, Repr, Inhabited

namespace Path

def namesOf (s : String) : List String :=
  (splitText '/' s).filter fun n => n != "" && n != "."

def ofString (s : String) : Path :=
  let leading := (s.toList.takeWhile (· == '/')).length
  ⟨if leading = 0 then 0 else if leading = 2 then 2 else 1, namesOf s⟩

/-- The written form. The empty relative path is a single point. -/
def toString (p : Path) : String :=
  if p.slashes = 0 ∧ p.names = [] then "."
  else
    String.ofList (List.replicate p.slashes '/') ++ String.intercalate "/" p.names

instance : ToString Path := ⟨Path.toString⟩

/-- The path without its last name. -/
def parent (p : Path) : Path :=
  { p with names := p.names.dropLast }

def name (p : Path) : String :=
  p.names.getLast?.getD ""

/-- The last point of a name and what follows it. A point at either end of the name starts no
suffix. -/
def suffixOf (name : String) : String :=
  let cs := name.toList
  let tail := (cs.reverse.takeWhile (· != '.')).reverse
  if tail.length < cs.length ∧ 0 < tail.length ∧ tail.length + 1 < cs.length then
    String.ofList ('.' :: tail)
  else ""

def suffix (p : Path) : String :=
  suffixOf p.name

def child (p : Path) (name : String) : Path :=
  { p with names := p.names ++ [name] }

def from' (directory p : Path) : Path :=
  if p.slashes = 0 then { directory with names := directory.names ++ p.names } else p

/-- The names without double points: each takes away the name before it. -/
def normalNames (names : List String) : List String :=
  names.foldl (fun done n => if n = ".." then done.dropLast else done ++ [n]) []

def normalize (p : Path) : Path :=
  { p with names := normalNames p.names }

/-- The path from a directory to another one, both given by their names from the root. -/
def relativeNames : List String → List String → List String
  | a :: start, b :: target =>
      if a = b then relativeNames start target
      else List.replicate (start.length + 1) ".." ++ b :: target
  | start, target => List.replicate start.length ".." ++ target

/-- The path that leads from `start` to `p`. Both are absolute. -/
def relativeTo (start p : Path) : Path :=
  ⟨0, relativeNames start.names p.names⟩

def withAncestors (p : Path) : List Path :=
  (List.range (p.names.length + 1)).map fun k =>
    { p with names := p.names.take (p.names.length - k) }

end Path

end TestRoster
