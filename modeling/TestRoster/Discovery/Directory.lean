import TestRoster.Discovery.File
import TestRoster.Files.Tree

/-!
Discovery of the test files below a directory.

A directory gives its files before its subdirectories, both in the order of their names. A file that
fails is reported and does not disturb the others. Several workers share the files as threads do,
which finish in any order. The parser that gives the concrete tree of a source is a parameter.
-/
namespace TestRoster

def SourceTree.ofFile (parse : Go.Source → Go.Cst) (fs : FileSystem) (path : String)
    (tolerate : Bool) :
    Except ParseFailure (SourceTree × List LogRecord) :=
  match fs.readAt path with
  | .error fault => .error ⟨path, .unreadable fault.message⟩
  | .ok bytes =>
      match Utf8.decode? bytes with
      | .error fault => .error ⟨path, .notText fault⟩
      | .ok _ => ofCst ⟨bytes⟩ path tolerate (parse ⟨bytes⟩)

def FileOutcome.ofFile (parse : Go.Source → Go.Cst) (fs : FileSystem) (cfg : Config) (mode : Mode)
    (path : String) : FileOutcome :=
  ofParsed cfg mode (SourceTree.ofFile parse fs path cfg.tolerateSyntaxErrors)

def Config.isTestFile (cfg : Config) (name : String) : Bool :=
  cfg.testFileSuffix.toList.isSuffixOf name.toList

def Config.enters (cfg : Config) (name : String) : Bool :=
  !cfg.skipDirs.contains name && name.toList.head? != some '.' && name.toList.head? != some '_'

/-- What stands below one entry of a directory: the test files and whether it is a file itself. -/
structure Listing where
  name : String
  isFile : Bool
  files : List Path

def Listing.merge (ls : List Listing) : List Path :=
  (ls.mergeSort fun a b => !decide (b.name < a.name)).flatMap Listing.files

mutual

def Entity.testFiles (cfg : Config) (here : Path) : Entity → List Path
  | .file _ => if cfg.isTestFile here.name then [here] else []
  | .directory entries =>
      let listings := Entity.listings cfg here entries
      Listing.merge (listings.filter (·.isFile)) ++ Listing.merge (listings.filter (!·.isFile))

def Entity.listings (cfg : Config) (here : Path) : List (String × Entity) → List Listing
  | [] => []
  | (name, .file _) :: rest =>
      ⟨name, true, if cfg.isTestFile name then [here.child name] else []⟩ ::
        Entity.listings cfg here rest
  | (name, .directory entries) :: rest =>
      ⟨name, false,
        if cfg.enters name then Entity.testFiles cfg (here.child name) (.directory entries)
        else []⟩ :: Entity.listings cfg here rest

end

def FileSystem.testFiles (fs : FileSystem) (cfg : Config) (root : Path) : List Path :=
  match fs.entity? root with
  | some e => e.testFiles cfg root
  | none => []

structure FileReport where
  path : String
  result : Except DiscoveryFailure Discovery

/-- What the log says of a failure. Faults that are neither of syntax nor of shape are named. -/
def DiscoveryFailure.account : DiscoveryFailure → String
  | .parse failure => failure.message
  | .shape fault =>
      if fault.isUnexpectedShape then fault.message else fault.label ++ ": " ++ fault.message

namespace FileReport

def tests (r : FileReport) : List TestCase :=
  match r.result with
  | .ok found => found.tests
  | .error _ => []

def reason (r : FileReport) : Option String :=
  match r.result with
  | .ok _ => none
  | .error failure => some failure.message

def ofFile (parse : Go.Source → Go.Cst) (fs : FileSystem) (cfg : Config) (mode : Mode) (p : Path) :
    FileReport × List LogRecord :=
  let outcome := FileOutcome.ofFile parse fs cfg mode p.toString
  let skipped := match outcome.result with
    | .ok _ => []
    | .error failure => [⟨.warning, "Skipping " ++ p.toString ++ ": " ++ failure.account⟩]
  (⟨p.toString, outcome.result⟩, outcome.log ++ skipped)

end FileReport

/-- An order in which threads finish `n` pieces of work. -/
abbrev FinishingOrder (n : Nat) :=
  { order : List Nat // order.Perm (List.range n) }

instance (n : Nat) : Inhabited (FinishingOrder n) :=
  ⟨⟨List.range n, .refl _⟩⟩

/-- What comes of the work on some items when threads finish it in some order: each of them leaves
what it has in the place of its item. -/
def inThreads {α β : Type} (order : List Nat) (work : α → β) (items : List α) : List β :=
  (order.foldl (fun places i => places.set i (items[i]?.map work))
    (List.replicate items.length none)).filterMap id

/-- The reports on all test files at or below a root as it is written, and the log. More than one
worker work on the files in threads, and then the log is in the order in which they finish. -/
def FileSystem.discover (fs : FileSystem) (parse : Go.Source → Go.Cst) (cfg : Config) (mode : Mode)
    (root : String) (workers : Option Int := none)
    (finish : (n : Nat) → FinishingOrder n := fun _ => default) :
    List FileReport × List LogRecord :=
  if fs.exists' (Path.ofString root) then
    let files := fs.testFiles cfg (Path.ofString root)
    let work := FileReport.ofFile parse fs cfg mode
    if workers.any (fun n => decide (1 < n)) ∧ 1 < files.length then
      let order := (finish files.length).1
      let outcomes := inThreads order work files
      (outcomes.map Prod.fst, order.flatMap fun i => (outcomes[i]?.map Prod.snd).getD [])
    else
      let outcomes := files.map work
      (outcomes.map Prod.fst, outcomes.flatMap Prod.snd)
  else ([], [⟨.debug, "Nothing to discover, " ++ root ++ " does not exist"⟩])

end TestRoster
