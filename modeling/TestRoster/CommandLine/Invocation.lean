import TestRoster.Files.Tree

/-!
What a command line asks for.
-/
namespace TestRoster

inductive ListFormat where
  | text
  | tree
  | json
  deriving DecidableEq, Repr

inductive Invocation where
  | list (directory : String) (benchmarks strict : Bool) (format : ListFormat)
      (workers : Option Int)
  | run (directory : String) (select debug quiet cover cpu mem : Bool) (filter : String)
  | bench (directory : String) (all benchMem cpu mem : Bool) (filter : String)
  | rerun
  | history (listOnly : Bool)
  | results (key : Option String) (raw : Bool)
  deriving DecidableEq, Repr

/-- What holds for all commands, the name of the command, and its words. -/
structure GlobalArguments where
  verbose : Bool := false
  config : Option String := none
  command : String
  rest : List String
  deriving DecidableEq, Repr

/-- How a command line ends that no command is carried out for. -/
structure UsageEnd where
  status : Nat
  text : String
  deriving DecidableEq, Repr, Inhabited

inductive Shown where
  | line (text : String)
  /-- A prompt with what was typed after it. -/
  | answered (prompt typed : String)
  deriving DecidableEq, Repr

/-- What comes of letting the user choose one of some things. -/
inductive Answer (choices : Nat) where
  | chosen (index : Fin choices)
  /-- No line is left to be read after a prompt. -/
  | aborted (prompt : String)
  deriving DecidableEq, Repr

instance (choices : Nat) : Inhabited (Answer choices) :=
  ⟨.aborted ""⟩

/-- The reader of command lines and of what the user types. -/
structure Terminal where
  /-- What a command line tells before its command, and the words of the command. -/
  arguments : FileSystem → List String → Except UsageEnd GlobalArguments
  /-- What the command of a command line is to do. -/
  invocation : FileSystem → GlobalArguments → Except UsageEnd Invocation
  /-- Lets the user choose by number, with a label and some lines to read: the answer, what is shown
  on the way, and the lines that are left. -/
  ask : String → (choices : Nat) → List String → Answer choices × List Shown × List String

end TestRoster
