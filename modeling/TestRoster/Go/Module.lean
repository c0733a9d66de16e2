import TestRoster.Files.Tree

/-!
Modules and the packages in them.

The root of a module is the nearest directory with a `go.mod`. The tool runs there, so packages and
files are named by their path from it.
-/
namespace TestRoster

def moduleFile : String := "go.mod"

namespace FileSystem

/-- The directory that a target stands for: its own for a file, and for a path with a suffix that
leads nowhere; else the target itself. -/
def directoryOf (fs : FileSystem) (target : Path) : Path :=
  if fs.isFile target || (target.suffix != "" && !fs.exists' target) then target.parent else target

def isModuleRoot (fs : FileSystem) (directory : Path) : Bool :=
  fs.isFile (directory.child moduleFile)

def moduleRoot? (fs : FileSystem) (target : Path) : Option Path :=
  (fs.directoryOf (fs.resolve target)).withAncestors.find? fs.isModuleRoot

/-- The package of a target as the tool takes it, seen from a module's root. Without the name of a
test, the root stands for all packages. -/
def packageTarget (fs : FileSystem) (target root : Path) (named : Bool) : String :=
  let relative := Path.relativeTo (fs.resolve root) (fs.directoryOf (fs.resolve target))
  if relative.names = [] then (if named then "." else "./...") else "./" ++ relative.toString

def fromModule (fs : FileSystem) (file root : Path) : String :=
  (Path.relativeTo (fs.resolve root) (fs.resolve file)).toString

end FileSystem

end TestRoster
