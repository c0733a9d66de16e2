import TestRoster.Run.Command

/-!
A command line as the shell reads it.

The shell goes through a line one character after another. Blanks part words; quotes and backslashes
take away the meaning of what they enclose. A line that has more to it than words, such as an
operator, an expansion, a pattern or quotes that stay open, is not split at all, so a line that is
split holds nothing but its words. A command that is shown is split into its arguments.
-/
namespace TestRoster

namespace Shell

/-- Where the shell stands in a line, with what it has gathered of a word. Outside of quotes a word
may not have begun; between quotes one has, even if nothing stands there. -/
inductive Mode where
  | plain (word : Option (List Char))
  | escaped (word : Option (List Char))
  | single (word : List Char)
  | double (word : List Char)
  | doubleEscaped (word : List Char)
  deriving DecidableEq, Repr

structure State where
  words : List String
  mode : Mode
  deriving DecidableEq, Repr

/-- The characters that, outside of quotes, may stand for something else than themselves: they end
the command, join it with others, or start an expansion, a pattern, a comment or a group. -/
def activeChars : List Char :=
  ['\n', '|', '&', ';', '<', '>', '(', ')', '$', '\x60', '*', '?', '[', ']', '^', '!', '#', '~',
    '\x7b', '\x7d']

/-- One more character of a line. A backslash before a line end takes both away; between double
quotes it escapes only what would have a meaning there. -/
def State.step (s : State) (c : Char) : Option State :=
  match s.mode with
  | .plain word =>
      if c = ' ' ∨ c = '\t' then some ⟨s.words ++ (word.map String.ofList).toList, .plain none⟩
      else if c = '\'' then some { s with mode := .single (word.getD []) }
      else if c = '"' then some { s with mode := .double (word.getD []) }
      else if c = '\\' then some { s with mode := .escaped word }
      else if c ∈ activeChars then none
      else some { s with mode := .plain (some (word.getD [] ++ [c])) }
  | .escaped word =>
      if c = '\n' then some { s with mode := .plain word }
      else some { s with mode := .plain (some (word.getD [] ++ [c])) }
  | .single word =>
      if c = '\'' then some { s with mode := .plain (some word) }
      else some { s with mode := .single (word ++ [c]) }
  | .double word =>
      if c = '"' then some { s with mode := .plain (some word) }
      else if c = '\\' then some { s with mode := .doubleEscaped word }
      else if c = '$' ∨ c = '\x60' then none
      else some { s with mode := .double (word ++ [c]) }
  | .doubleEscaped word =>
      if c = '\n' then some { s with mode := .double word }
      else if ['$', '\x60', '"', '\\'].contains c then some { s with mode := .double (word ++ [c]) }
      else some { s with mode := .double (word ++ ['\\', c]) }

/-- The words of a line that ends here. -/
def State.finish (s : State) : Option (List String) :=
  match s.mode with
  | .plain word => some (s.words ++ (word.map String.ofList).toList)
  | _ => none

def State.run (s : State) (cs : List Char) : Option State :=
  cs.foldlM State.step s

/-- The words of a line, if it holds nothing but words. -/
def split (line : String) : Option (List String) :=
  ((State.mk [] (.plain none)).run line.toList).bind State.finish

variable {words : List String} {word cs : List Char} {c : Char}

theorem State.run_append (s : State) (cs ds : List Char) :
    s.run (cs ++ ds) = (s.run cs).bind fun t => t.run ds :=
  List.foldlM_append

/-- A safe character has no meaning of its own, so a word goes on with it. -/
theorem step_safe (safe : isShellSafe c = true) (words : List String) (word : Option (List Char)) :
    State.step ⟨words, .plain word⟩ c = some ⟨words, .plain (some (word.getD [] ++ [c]))⟩ := by
  have each : ∀ d ∈ [' ', '\t', '\'', '"', '\\'] ++ activeChars, isShellSafe d = false := by
    simp [activeChars, isShellSafe]
  have inert : c ∉ [' ', '\t', '\'', '"', '\\'] ++ activeChars := fun member => by
    rw [each c member] at safe
    cases safe
  simp only [List.mem_append, List.mem_cons, List.not_mem_nil, or_false, not_or] at inert
  obtain ⟨⟨space, tab, single, double, back⟩, active⟩ := inert
  simp only [State.step, space, tab, single, double, back, active, or_self, if_false]

theorem run_safe (each : ∀ c ∈ cs, isShellSafe c = true) (words : List String) (word : List Char) :
    State.run ⟨words, .plain (some word)⟩ cs = some ⟨words, .plain (some (word ++ cs))⟩ := by
  induction cs generalizing word with
  | nil => rw [List.append_nil]; rfl
  | cons c cs ih =>
      obtain ⟨safe, later⟩ := List.forall_mem_cons.mp each
      rw [State.run, List.foldlM_cons, step_safe safe]
      simpa [State.run] using ih later (word ++ [c])

/-- A character is gathered as it is, a quote by leaving the single quotes for double ones. -/
theorem run_quotedChar (words : List String) (word : List Char) (c : Char) :
    State.run ⟨words, .single word⟩ (shellQuotedChar c) = some ⟨words, .single (word ++ [c])⟩ := by
  rw [shellQuotedChar]
  split
  next quote =>
    rw [quote]
    rfl
  next other =>
    rw [State.run, List.foldlM_cons, State.step]
    simp [other]

theorem run_quoted (words : List String) (word cs : List Char) :
    State.run ⟨words, .single word⟩ (cs.flatMap shellQuotedChar) =
      some ⟨words, .single (word ++ cs)⟩ := by
  induction cs generalizing word with
  | nil => rw [List.append_nil]; rfl
  | cons c cs ih =>
      rw [List.flatMap_cons, State.run_append, run_quotedChar, Option.bind_some, ih,
        List.append_assoc, List.singleton_append]

/-- A word that is written for the shell is gathered as it was. -/
theorem run_shellWord (words : List String) (s : String) :
    State.run ⟨words, .plain none⟩ (shellWord s).toList = some ⟨words, .plain (some s.toList)⟩ := by
  rw [shellWord]
  split
  next safe =>
    obtain ⟨some', all⟩ := safe
    obtain ⟨c, cs, chars⟩ := List.exists_cons_of_ne_nil some'
    rw [chars] at all ⊢
    obtain ⟨first, later⟩ := List.forall_mem_cons.mp (List.all_eq_true.mp all)
    rw [State.run, List.foldlM_cons, step_safe first]
    exact run_safe later words [c]
  next =>
    have opened : State.run ⟨words, .plain none⟩ ['\''] = some ⟨words, .single []⟩ := rfl
    have closed : State.run ⟨words, .single s.toList⟩ ['\''] =
      some ⟨words, .plain (some s.toList)⟩ :=
      rfl
    rw [String.toList_ofList, ← List.singleton_append, List.append_assoc, State.run_append, opened,
      Option.bind_some, State.run_append, run_quoted, Option.bind_some, List.nil_append, closed]

/-- The induction is on the words that are still to come; those before them are kept. -/
theorem run_shellLine (words args : List String) :
    (State.run ⟨words, .plain none⟩ (shellLine args).toList).bind State.finish =
      some (words ++ args) := by
  induction args generalizing words with
  | nil => rfl
  | cons a args ih =>
      cases args with
      | nil =>
          rw [shellLine, List.map_singleton, String.intercalate_singleton, run_shellWord]
          simp [State.finish]
      | cons b args =>
          have parted : State.run ⟨words, .plain (some a.toList)⟩ [' '] =
              some ⟨words ++ [a], .plain none⟩ := by
            simp [State.run, State.step]
          have line : (shellLine (a :: b :: args)).toList =
              (shellWord a).toList ++ ([' '] ++ (shellLine (b :: args)).toList) := by
            rw [shellLine, List.map_cons, List.map_cons, String.intercalate_cons_cons,
              String.toList_append, String.toList_append, List.append_assoc]
            rfl
          rw [line, State.run_append, run_shellWord, Option.bind_some, State.run_append, parted,
            Option.bind_some, ih, List.append_assoc, List.singleton_append]

end Shell

/-- A command that is shown can be pasted into a shell: whatever its arguments hold, the shell
splits the line into these arguments and finds nothing else in it. -/
theorem shown_command_is_split_into_arguments (c : Command) :
    Shell.split c.display = some c.args := by
  have read := Shell.run_shellLine [] c.args
  rwa [List.nil_append] at read

/-- Words that no command is shown with are split as well, and open quotes or expansions are not. -/
example : Shell.split "a\\ b \"c\\$\\d\"'e' ''" = some ["a b", "c$\\de", ""] ∧
    Shell.split "'a" = none ∧ Shell.split "a \"$b\"" = none := by decide +kernel

end TestRoster
