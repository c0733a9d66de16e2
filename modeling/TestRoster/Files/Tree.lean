import TestRoster.Files.Path
import TestRoster.Text.Literal
import TestRoster.Text.Named

/-!
Files and directories as a value.

A path is looked up name by name: all but the last one have to be directories, and a double point
leads to the directory above. There are no links.
-/
namespace TestRoster

inductive Entity where
  | file (bytes : List UInt8)
  | directory (entries : List (String × Entity))
  deriving Inhabited

inductive FileCause where
  | notFound
  | exists'
  | notDirectory
  | isDirectory
  deriving DecidableEq, Repr

/-- What went wrong where. A fault of moving a file names both of its places. -/
structure FileFault where
  cause : FileCause
  path : String
  target : Option String
  deriving DecidableEq, Repr

def FileCause.number : FileCause → Nat
  | .notFound => 2
  | .exists' => 17
  | .notDirectory => 20
  | .isDirectory => 21

def FileCause.text : FileCause → String
  | .notFound => "No such file or directory"
  | .exists' => "File exists"
  | .notDirectory => "Not a directory"
  | .isDirectory => "Is a directory"

def FileCause.label : FileCause → String
  | .notFound => "FileNotFoundError"
  | .exists' => "FileExistsError"
  | .notDirectory => "NotADirectoryError"
  | .isDirectory => "IsADirectoryError"

def FileFault.message (f : FileFault) : String :=
  "[Errno " ++ toString f.cause.number ++ "] " ++ f.cause.text ++ ": " ++ literalText f.path ++
    match f.target with
    | some target => " -> " ++ literalText target
    | none => ""

namespace Entity

def isFile : Entity → Bool
  | .file _ => true
  | .directory _ => false

def isDirectory : Entity → Bool
  | .file _ => false
  | .directory _ => true

def find : List String → Entity → Except FileCause Entity
  | [], e => .ok e
  | _ :: _, .file _ => .error .notDirectory
  | name :: rest, .directory entries =>
      match entries.lookup name with
      | some e => find rest e
      | none => .error .notFound

/-- Puts an entity at the end of some names. What is missing on the way there becomes a directory;
nothing changes below a file. -/
def put (new : Entity) : List String → Entity → Entity
  | [], _ => new
  | _ :: _, .file bytes => .file bytes
  | name :: rest, .directory entries =>
      .directory (setNamed name (put new rest ((entries.lookup name).getD (.directory []))) entries)

def erase : List String → Entity → Entity
  | _, .file bytes => .file bytes
  | [], e => e
  | [name], .directory entries => .directory (entries.filter (·.1 != name))
  | name :: rest, .directory entries =>
      match entries.lookup name with
      | some e => .directory (setNamed name (erase rest e) entries)
      | none => .directory entries

end Entity

/-- All files, and the directory that relative paths start from. -/
structure FileSystem where
  root : Entity
  current : List String
  deriving Inhabited

namespace FileSystem

def find (fs : FileSystem) (names : List String) : Except FileCause Entity :=
  fs.root.find names

/-- The place that names lead to from `here`. Everything before the last name has to be a
directory. -/
def walk (fs : FileSystem) (here : List String) : List String → Except FileCause (List String)
  | [] => .ok here
  | name :: rest =>
      match fs.find here with
      | .error cause => .error cause
      | .ok (.file _) => .error .notDirectory
      | .ok (.directory _) =>
          walk fs (if name = ".." then here.dropLast else here ++ [name]) rest

def locate (fs : FileSystem) (p : Path) : Except FileCause (List String) :=
  fs.walk (if p.slashes = 0 then fs.current else []) p.names

def entity? (fs : FileSystem) (p : Path) : Option Entity :=
  ((fs.locate p).bind fs.find).toOption

def isFile (fs : FileSystem) (p : Path) : Bool :=
  (fs.entity? p).any Entity.isFile

def isDirectory (fs : FileSystem) (p : Path) : Bool :=
  (fs.entity? p).any Entity.isDirectory

def exists' (fs : FileSystem) (p : Path) : Bool :=
  (fs.entity? p).isSome

def here (fs : FileSystem) : Path :=
  ⟨1, fs.current⟩

/-- The absolute path without double points. -/
def resolve (fs : FileSystem) (p : Path) : Path :=
  { (Path.from' fs.here p).normalize with slashes := 1 }

def read (fs : FileSystem) (p : Path) (written : String) : Except FileFault (List UInt8) :=
  match (fs.locate p).bind fs.find with
  | .ok (.file bytes) => .ok bytes
  | .ok (.directory _) => .error ⟨.isDirectory, written, none⟩
  | .error cause => .error ⟨cause, written, none⟩

/-- The bytes of the file at a path as it is written. An empty path is no file, and one that ends in
a slash is no file either. -/
def readAt (fs : FileSystem) (written : String) : Except FileFault (List UInt8) :=
  if written = "" then .error ⟨.notFound, written, none⟩
  else
    match fs.read (Path.ofString written) written with
    | .ok bytes =>
        if written.toList.getLast? = some '/' then .error ⟨.notDirectory, written, none⟩
        else .ok bytes
    | .error fault => .error fault

/-- Writes the file at a path, from what it held before if it is there. Its directory has to be
there. -/
def modify (fs : FileSystem) (p : Path) (change : List UInt8 → List UInt8) :
    Except FileFault FileSystem :=
  let fail {α : Type} (cause : FileCause) : Except FileFault α := .error ⟨cause, p.toString, none⟩
  match fs.locate p with
  | .error cause => fail cause
  | .ok names =>
      let write (old : List UInt8) : Except FileFault FileSystem :=
        .ok { fs with root := Entity.put (.file (change old)) names fs.root }
      match fs.find names with
      | .ok (.file bytes) => write bytes
      | .ok (.directory _) => fail .isDirectory
      | .error .notFound =>
          match fs.find names.dropLast with
          | .ok (.directory _) => write []
          | .ok (.file _) => fail .notDirectory
          | .error cause => fail cause
      | .error cause => fail cause

def write (fs : FileSystem) (p : Path) (bytes : List UInt8) : Except FileFault FileSystem :=
  fs.modify p fun _ => bytes

def append (fs : FileSystem) (p : Path) (bytes : List UInt8) : Except FileFault FileSystem :=
  fs.modify p (· ++ bytes)

def move (fs : FileSystem) (source target : Path) : Except FileFault FileSystem := do
  let bytes ← fs.read source source.toString
  let moved ← fs.write target bytes
  match moved.locate source with
  | .ok names => return { moved with root := moved.root.erase names }
  | .error _ => return moved

/-- Moves a file to a place that may be taken. -/
def rename (fs : FileSystem) (source target : Path) : Except FileFault FileSystem :=
  (fs.move source target).mapError fun fault =>
    ⟨fault.cause, source.toString, some target.toString⟩

def makeDirectory (fs : FileSystem) (p : Path) : Except FileFault FileSystem :=
  match fs.locate p with
  | .error cause => .error ⟨cause, p.toString, none⟩
  | .ok names =>
      match fs.find names with
      | .ok _ => .error ⟨.exists', p.toString, none⟩
      | .error .notFound =>
          match fs.find names.dropLast with
          | .ok (.directory _) => .ok { fs with root := Entity.put (.directory []) names fs.root }
          | .ok (.file _) => .error ⟨.notDirectory, p.toString, none⟩
          | .error cause => .error ⟨cause, p.toString, none⟩
      | .error cause => .error ⟨cause, p.toString, none⟩

def ensureDirectory (fs : FileSystem) (p : Path) : Except FileFault FileSystem :=
  match fs.makeDirectory p with
  | .ok made => .ok made
  | .error fault =>
      if fault.cause ≠ .notFound ∧ fs.isDirectory p then .ok fs else .error fault

/-- Makes a directory with the directories above it that are missing, `fuel` of them at most. -/
def ensureAbove : Nat → FileSystem → Path → Except FileFault FileSystem
  | 0, fs, p => fs.ensureDirectory p
  | fuel + 1, fs, p =>
      match fs.ensureDirectory p with
      | .ok made => .ok made
      | .error fault =>
          if fault.cause = .notFound ∧ p.parent ≠ p then do
            (← ensureAbove fuel fs p.parent).ensureDirectory p
          else .error fault

def ensureDirectories (fs : FileSystem) (p : Path) : Except FileFault FileSystem :=
  ensureAbove p.names.length fs p

end FileSystem

end TestRoster
