import TestRoster.Files.Path

/-!
The directories of users.
-/
namespace TestRoster

structure Homes where
  /-- The directory of the user. -/
  own : String
  /-- The directories of users by their names. -/
  ofUser : String → Option String := fun _ => none
  /-- Where the program keeps its own files unless it is told otherwise. -/
  programDirectory : String
  deriving Inhabited

namespace Homes

/-- A path as it is typed, where a tilde in front, perhaps with the name of a user, stands for a
directory. A tilde with an unknown name stands for itself. -/
def expand (h : Homes) (typed : String) : String :=
  match typed.toList with
  | '~' :: rest =>
      let name := rest.takeWhile (· != '/')
      match if name = [] then some h.own else h.ofUser (String.ofList name) with
      | none => typed
      | some home =>
          let front := (home.toList.reverse.dropWhile (· == '/')).reverse
          match front ++ rest.drop name.length with
          | [] => "/"
          | cs => String.ofList cs
  | _ => typed

def directory (h : Homes) : Path :=
  Path.ofString (h.expand "~")

end Homes

end TestRoster
