import TestRoster.CommandLine.Invocation
import TestRoster.Text.Numeral

/-!
Reading the words of a command line.

Every command has its flags, its options with a value, and at most one argument. Flags of one letter
may stand together; a value stands in the next word or after an equals sign; two hyphens alone end
the options.
-/
namespace TestRoster

inductive UsageFault where
  | noCommand
  | unknownCommand (name : String)
  | unknownOption (name : String)
  | noValue (name : String)
  | unexpectedValue (name : String)
  | badChoice (name value : String)
  | badNumber (name value : String)
  | unexpectedArgument (word : String)
  | noSuchPath (path : String)
  | isDirectory (path : String)
  deriving DecidableEq, Repr

def UsageFault.message : UsageFault → String
  | .noCommand => "Missing command."
  | .unknownCommand name => "No such command " ++ literalText name ++ "."
  | .unknownOption name => "No such option: " ++ name
  | .noValue name => "Option " ++ literalText name ++ " requires an argument."
  | .unexpectedValue name => "Option " ++ literalText name ++ " does not take a value."
  | .badChoice name value =>
      "Invalid value for " ++ literalText name ++ ": " ++ literalText value ++
        " is not one of 'text', 'tree', 'json'."
  | .badNumber name value =>
      "Invalid value for " ++ literalText name ++ ": " ++ literalText value ++
        " is not a valid integer."
  | .unexpectedArgument word => "Got unexpected extra argument (" ++ word ++ ")"
  | .noSuchPath path =>
      "Invalid value for '[DIRECTORY]': Path " ++ literalText path ++ " does not exist."
  | .isDirectory path =>
      "Invalid value for '--config': File " ++ literalText path ++ " is a directory."

/-- A fault of usage is told, and ends the command line. -/
def UsageFault.ended (f : UsageFault) : UsageEnd :=
  ⟨2, "Error: " ++ f.message ++ "\n"⟩

/-- The options of a command: flags and options with a value, by all their names. -/
structure OptionNames where
  flags : List (String × String)
  valued : List (String × String)

structure Given where
  flags : List String := []
  values : List (String × String) := []
  arguments : List String := []

namespace Given

def has (g : Given) (flag : String) : Bool := g.flags.contains flag

/-- The value of an option, which its last occurrence gives. -/
def value? (g : Given) (name : String) : Option String :=
  (g.values.reverse.lookup name)

end Given

/-- A word that starts with two hyphens: the name and the value after an equals sign. -/
def splitValue (word : String) : String × Option String :=
  let cs := word.toList
  let name := cs.takeWhile (· != '=')
  match cs.drop name.length with
  | [] => (word, none)
  | _ :: value => (String.ofList name, some (String.ofList value))

def letterFlags (names : OptionNames) : List Char → Except UsageFault (List String)
  | [] => .ok []
  | c :: rest => do
      let name := String.ofList ['-', c]
      match names.flags.lookup name with
      | some flag => return flag :: (← letterFlags names rest)
      | none => throw (.unknownOption name)

inductive Word where
  | flags (names : List String)
  | option (name value : String)
  /-- An option whose value is the next word. -/
  | awaiting (name written : String)
  | argument

def Word.ofString (names : OptionNames) (word : String) : Except UsageFault Word :=
  match word.toList with
  | '-' :: '-' :: _ =>
      let (name, value) := splitValue word
      match names.flags.lookup name, names.valued.lookup name, value with
      | some flag, _, none => .ok (.flags [flag])
      | some _, _, some _ => .error (.unexpectedValue name)
      | none, some meant, some value => .ok (.option meant value)
      | none, some meant, none => .ok (.awaiting meant name)
      | none, none, _ => .error (.unknownOption name)
  | '-' :: c :: letters => Word.flags <$> letterFlags names (c :: letters)
  | _ => .ok .argument

/-- Reads the words of a command. With `mixed` options may stand after arguments; else the first
argument ends them. -/
def readWords (names : OptionNames) (mixed : Bool) : List String → Except UsageFault Given
  | [] => .ok {}
  | "--" :: rest => .ok { arguments := rest }
  | word :: rest => do
      match ← Word.ofString names word with
      | .flags flags =>
          let g ← readWords names mixed rest
          return { g with flags := flags ++ g.flags }
      | .option name value =>
          let g ← readWords names mixed rest
          return { g with values := (name, value) :: g.values }
      | .awaiting name written =>
          match rest with
          | [] => throw (.noValue written)
          | value :: after =>
              let g ← readWords names mixed after
              return { g with values := (name, value) :: g.values }
      | .argument =>
          if mixed then
            let g ← readWords names mixed rest
            return { g with arguments := word :: g.arguments }
          else return { arguments := word :: rest }

def onlyArgument : List String → Except UsageFault (Option String)
  | [] => .ok none
  | [word] => .ok (some word)
  | _ :: word :: _ => .error (.unexpectedArgument word)

namespace GlobalArguments

def names : OptionNames where
  flags := [("-v", "verbose"), ("--verbose", "verbose")]
  valued := [("--config", "config")]

def ofWords (words : List String) : Except UsageFault GlobalArguments := do
  let g ← readWords names false words
  match g.arguments with
  | [] => throw .noCommand
  | command :: rest =>
      if ["list", "run", "bench", "rerun", "history", "results"].contains command then
        return {
          verbose := g.has "verbose"
          config := g.value? "config"
          command := command
          rest := rest }
      else throw (.unknownCommand command)

end GlobalArguments

namespace Invocation

def listNames : OptionNames where
  flags := [("--benchmarks", "benchmarks"), ("-b", "benchmarks"), ("--strict", "strict")]
  valued := [("--format", "format"), ("--workers", "workers")]

def runNames : OptionNames where
  flags :=
    [("--select", "select"), ("-s", "select"), ("--quiet", "quiet"), ("-q", "quiet"),
      ("--debug", "debug"), ("-d", "debug"), ("--cover", "cover"), ("--cpu", "cpu"),
        ("--mem", "mem")]
  valued := [("--filter", "filter")]

def benchNames : OptionNames where
  flags := [("--all", "all"), ("--benchmem", "benchmem"), ("--cpu", "cpu"), ("--mem", "mem")]
  valued := [("--filter", "filter")]

def formatOf : Option String → Except UsageFault ListFormat
  | none | some "text" => .ok .text
  | some "tree" => .ok .tree
  | some "json" => .ok .json
  | some value => .error (.badChoice "--format" value)

def numberOf (name : String) : Option String → Except UsageFault (Option Int)
  | none => .ok none
  | some value =>
      match Numeral.parse value.toList with
      | .ok n => .ok (some n)
      | .error _ => .error (.badNumber name value)

def ofWords (command : String) (words : List String) : Except UsageFault Invocation := do
  match command with
  | "list" =>
      let g ← readWords listNames true words
      let directory := (← onlyArgument g.arguments).getD "."
      return .list directory (g.has "benchmarks") (g.has "strict") (← formatOf (g.value? "format"))
        (← numberOf "--workers" (g.value? "workers"))
  | "run" =>
      let g ← readWords runNames true words
      let directory := (← onlyArgument g.arguments).getD "."
      return .run directory (g.has "select") (g.has "debug") (g.has "quiet") (g.has "cover")
        (g.has "cpu") (g.has "mem") ((g.value? "filter").getD "")
  | "bench" =>
      let g ← readWords benchNames true words
      let directory := (← onlyArgument g.arguments).getD "."
      return .bench directory (g.has "all") (g.has "benchmem") (g.has "cpu") (g.has "mem")
        ((g.value? "filter").getD "")
  | "rerun" =>
      let g ← readWords ⟨[], []⟩ true words
      match g.arguments with
      | [] => return .rerun
      | word :: _ => throw (.unexpectedArgument word)
  | "history" =>
      let g ← readWords ⟨[("--list", "list")], []⟩ true words
      match g.arguments with
      | [] => return .history (g.has "list")
      | word :: _ => throw (.unexpectedArgument word)
  | "results" =>
      let g ← readWords ⟨[("--raw", "raw")], []⟩ true words
      return .results (← onlyArgument g.arguments) (g.has "raw")
  | name => throw (.unknownCommand name)

def directory? : Invocation → Option String
  | .list directory _ _ _ _ | .run directory _ _ _ _ _ _ _ | .bench directory _ _ _ _ _ =>
      some directory
  | _ => none

end Invocation

namespace Terminal

/-- What holds for all commands. A directory is no file of settings. -/
def argumentsOf (fs : FileSystem) (words : List String) : Except UsageFault GlobalArguments := do
  let g ← GlobalArguments.ofWords words
  match g.config with
  | some file => if fs.isDirectory (Path.ofString file) then throw (.isDirectory file) else return g
  | none => return g

def invocationOf (fs : FileSystem) (g : GlobalArguments) : Except UsageFault Invocation := do
  let invocation ← Invocation.ofWords g.command g.rest
  match invocation.directory? with
  | some directory =>
      if directory = "" ∨ !fs.exists' (Path.ofString directory) then throw (.noSuchPath directory)
      else return invocation
  | none => return invocation

end Terminal

end TestRoster
