/-!
Lists of values by name.
-/
namespace TestRoster

/-- Gives a value to a name. A name that is there keeps its place. -/
def setNamed {α : Type} (name : String) (value : α) : List (String × α) → List (String × α)
  | [] => [(name, value)]
  | (n, old) :: rest =>
      if n = name then (n, value) :: rest else (n, old) :: setNamed name value rest

end TestRoster
