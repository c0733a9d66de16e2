import TestRoster.Proofs.Run.Act
import TestRoster.Run.History

/-!
What is started while an action runs.

The programs that were started between two sessions are told with what each of them did. Carrying
out a command starts its program at most once, and everything that builds the command starts
nothing.
-/
namespace TestRoster

/-- What was started from one session to another, each with what it did; the tools, the directories
of users and what is taken from elsewhere are the same. -/
structure Progress (made : List (Start × Behaviour)) (s s' : Session) : Prop where
  starts : s'.starts = s.starts ++ made.map Prod.fst
  behaviours : s'.behaviours = s.behaviours.drop made.length
  did : ∀ (i : Nat) (m : Start × Behaviour), made[i]? = some m → m.2 = s.behaviours.getD i {}
  toolDirectory : s'.toolDirectory = s.toolDirectory
  missingTools : s'.missingTools = s.missingTools
  homes : s'.homes = s.homes
  library : s'.library = s.library

/-- What was started while neither the files nor the clock changed. -/
structure Ran (made : List (Start × Behaviour)) (s s' : Session) : Prop extends
    Progress made s s' where
  files : s'.files = s.files
  clock : s'.clock = s.clock

/-- The programs that were started from one session to another, with what they did. -/
def started (s s' : Session) : List (Start × Behaviour) :=
  (s'.starts.drop s.starts.length).zipIdx.map fun m => (m.1, s.behaviours.getD m.2 {})

/-- The lines that are read of a program. There are none if it is refused, or if its output is read
and is no text. -/
def Behaviour.linesRead (manner : Manner) (b : Behaviour) : Except Failure (List String) :=
  match b.refusal, manner with
  | some refusal, _ => .error (.notStarted refusal)
  | none, .attached => .ok []
  | none, .streamed =>
      match outputLines b.output with
      | (lines, none) => .ok lines
      | (_, some fault) => .error (.notText fault)

/-- Whether a program was started and its output, if that is read, is a text. -/
def wasRead (m : Start × Behaviour) : Bool :=
  (m.2.linesRead m.1.manner).toBool

namespace Behaviour

variable {b : Behaviour}

theorem linesRead_refused {refusal : Refusal} (manner : Manner)
    (refused : b.refusal = some refusal) :
    b.linesRead manner = .error (.notStarted refusal) := by
  cases manner <;> simp [linesRead, refused]

theorem linesRead_attached (ran : b.refusal = none) : b.linesRead .attached = .ok [] := by
  simp [linesRead, ran]

theorem linesRead_text {lines : List String} (ran : b.refusal = none)
    (told : outputLines b.output = (lines, none)) : b.linesRead .streamed = .ok lines := by
  simp [linesRead, ran, told]

theorem linesRead_flaw {lines : List String} {fault : Utf8.DecodeFault} (ran : b.refusal = none)
    (told : outputLines b.output = (lines, some fault)) :
    b.linesRead .streamed = .error (.notText fault) := by
  simp [linesRead, ran, told]

end Behaviour

theorem refusal_of_wasRead {m : Start × Behaviour} (read : wasRead m = true) :
    m.2.refusal = none := by
  cases refused : m.2.refusal with
  | none => rfl
  | some refusal =>
      rw [wasRead, Behaviour.linesRead_refused _ refused] at read
      cases read

variable {made more : List (Start × Behaviour)} {s s' s'' : Session}

theorem Progress.started_eq (h : Progress made s s') : started s s' = made := by
  rw [started, h.starts, List.drop_left]
  refine List.ext_getElem? fun i => ?_
  cases at' : made[i]? with
  | none => simp [at']
  | some m =>
      have did := h.did i m at'
      rw [List.getD_eq_getElem?_getD] at did
      simp [at', ← did]

theorem Progress.refl (s : Session) : Progress [] s s where
  starts := by simp
  behaviours := by simp
  did := by simp
  toolDirectory := rfl
  missingTools := rfl
  homes := rfl
  library := rfl

theorem Progress.trans (h : Progress made s s') (h' : Progress more s' s'') :
    Progress (made ++ more) s s'' where
  starts := by rw [h'.starts, h.starts, List.append_assoc, List.map_append]
  behaviours := by rw [h'.behaviours, h.behaviours, List.drop_drop, List.length_append]
  did := by
    intro i m at'
    by_cases first : i < made.length
    · rw [List.getElem?_append_left first] at at'
      exact h.did i m at'
    · rw [List.getElem?_append_right (Nat.le_of_not_lt first)] at at'
      have place : made.length + (i - made.length) = i := by omega
      rw [h'.did _ m at', h.behaviours, List.getD_eq_getElem?_getD, List.getD_eq_getElem?_getD,
        List.getElem?_drop, place]
  toolDirectory := h'.toolDirectory.trans h.toolDirectory
  missingTools := h'.missingTools.trans h.missingTools
  homes := h'.homes.trans h.homes
  library := h'.library.trans h.library

theorem Ran.refl (s : Session) : Ran [] s s :=
  ⟨.refl s, rfl, rfl⟩

theorem Ran.trans (h : Ran made s s') (h' : Ran more s' s'') : Ran (made ++ more) s s'' :=
  ⟨h.toProgress.trans h'.toProgress, h'.files.trans h.files, h'.clock.trans h.clock⟩

instance : Act.Lasting (Ran []) where
  refl := .refl
  trans := .trans

/-- Only what is shown, asked, logged or counted has changed. -/
theorem ran_of_same (starts : s'.starts = s.starts) (behaviours : s'.behaviours = s.behaviours)
    (toolDirectory : s'.toolDirectory = s.toolDirectory)
    (missingTools : s'.missingTools = s.missingTools) (homes : s'.homes = s.homes)
    (library : s'.library = s.library) (files : s'.files = s.files)
    (clock : s'.clock = s.clock) : Ran [] s s' where
  starts := by simpa using starts
  behaviours := by simpa using behaviours
  did := by simp
  toolDirectory := toolDirectory
  missingTools := missingTools
  homes := homes
  library := library
  files := files
  clock := clock

namespace Act

/-- An action that starts nothing and changes neither the files nor the clock. -/
abbrev Quiet {α : Type} (a : Act α) : Prop :=
  Keeps (Ran []) a

theorem quiet_echo (line : String) : Quiet (echo line) :=
  keeps_modify fun _ => ran_of_same rfl rfl rfl rfl rfl rfl rfl rfl

theorem quiet_record (level : Level) (text : String) : Quiet (record level text) :=
  keeps_modify fun _ => ran_of_same rfl rfl rfl rfl rfl rfl rfl rfl

theorem quiet_recordAll (log : List LogRecord) : Quiet (recordAll log) :=
  keeps_modify fun _ => ran_of_same rfl rfl rfl rfl rfl rfl rfl rfl

theorem quiet_nextTemporary : Quiet nextTemporary :=
  fun _ => ran_of_same rfl rfl rfl rfl rfl rfl rfl rfl

theorem quiet_readText (p : Path) : Quiet (readText p) :=
  keeps_get.bind fun _ => (keeps_lift _ _).bind fun _ => (keeps_lift _ _).bind fun _ => keeps_pure _

theorem quiet_readLines (p : Path) : Quiet (readLines p) :=
  keeps_get.bind fun _ => (keeps_lift _ _).bind fun _ => keeps_pure _

theorem quiet_reportFile (name : String) (directory : Option String) :
    Quiet (reportFile name directory) :=
  quiet_nextTemporary.bind fun _ => keeps_get.bind fun _ => keeps_pure _

theorem quiet_reportIf (asked : Bool) (name : String) (directory : Option String) :
    Quiet (reportIf asked name directory) := by
  rw [reportIf]
  split
  · exact (quiet_reportFile name directory).map some
  · exact keeps_pure none

theorem quiet_moduleRoot (target : String) : Quiet (moduleRoot target) := by
  refine keeps_get.bind fun s => ?_
  split
  · exact keeps_pure _
  · exact keeps_throw _

theorem quiet_rootOr (given : Option String) (target : String) : Quiet (rootOr given target) := by
  cases given with
  | none => exact quiet_moduleRoot target
  | some root => exact keeps_pure _

theorem quiet_testCommand (test : Option TestCase) (target : String) (root : Option String)
    (options : RunOptions) (reports : Option String) :
    Quiet (testCommand test target root options reports) :=
  (quiet_rootOr _ _).bind fun _ => keeps_get.bind fun _ => (quiet_reportIf _ _ _).bind fun _ =>
    (quiet_reportIf _ _ _).bind fun _ => (quiet_reportIf _ _ _).bind fun _ => keeps_pure _

theorem quiet_benchmarkCommand (test : Option TestCase) (target : String) (root : Option String)
    (options : RunOptions) (reports : Option String) :
    Quiet (benchmarkCommand test target root options reports) :=
  (quiet_rootOr _ _).bind fun _ => keeps_get.bind fun _ => (quiet_reportIf _ _ _).bind fun _ =>
    (quiet_reportIf _ _ _).bind fun _ => keeps_pure _

theorem quiet_recordExecution (c : Command) : Quiet (recordExecution c) :=
  quiet_record _ _

/-- A start is that of a command's program, which is there. -/
structure Launches (manner : Manner) (c : Command) (s : Session) (st : Start) : Prop where
  manner : st.manner = manner
  args : ∃ name rest, c.args = name :: rest ∧ s.missingTools.contains name = false ∧
    st.args = (s.toolDirectory ++ "/" ++ name) :: rest
  directory : st.directory = c.directory

def Missing (c : Command) (s : Session) : Prop :=
  ∀ name rest, c.args = name :: rest → s.missingTools.contains name = true

theorem Launches.of_args {manner : Manner} {c : Command} {st : Start} {name : String}
    {rest : List String} (h : Launches manner c s st) (args : c.args = name :: rest) :
    s.missingTools.contains name = false ∧ st.args = (s.toolDirectory ++ "/" ++ name) :: rest := by
  obtain ⟨-, ⟨name', rest', args', found, started⟩, -⟩ := h
  cases args.symm.trans args'
  exact ⟨found, started⟩

theorem ran_started (st : Start) (s : Session) :
    Ran [(st, s.behaviours.headD {})] s
      { s with starts := s.starts ++ [st], behaviours := s.behaviours.drop 1 } := by
  refine ⟨⟨rfl, rfl, ?_, rfl, rfl, rfl, rfl⟩, rfl, rfl⟩
  intro i m at'
  cases i with
  | zero =>
      cases at'
      cases s.behaviours <;> rfl
  | succ i => cases at'

theorem start_cases (manner : Manner) (args : List String) (directory : String) (s : Session) :
    ∃ st b s', st.manner = manner ∧ st.args = args ∧ st.directory = directory ∧
      Ran [(st, b)] s s' ∧
      ((∃ reason, b.refusal = some reason ∧
          (start manner args directory).run s = (.error (.notStarted reason), s')) ∨
        b.refusal = none ∧ (start manner args directory).run s = (.ok b, s')) := by
  obtain ⟨result, s', runs⟩ : ∃ result s', (start manner args directory).run s = (result, s') :=
    ⟨_, _, rfl⟩
  have ended := runs
  rw [start, run_bind_ok (run_get s), run_bind_ok (run_set s _)] at ended
  cases refusal : (s.behaviours.headD {}).refusal with
  | some reason =>
      simp only [refusal] at ended
      cases ended
      exact ⟨⟨manner, args, directory, _⟩, _, _, rfl, rfl, rfl, ran_started _ s,
        .inl ⟨reason, refusal, runs⟩⟩
  | none =>
      simp only [refusal] at ended
      cases ended
      exact ⟨⟨manner, args, directory, _⟩, _, _, rfl, rfl, rfl, ran_started _ s,
        .inr ⟨refusal, runs⟩⟩

theorem findTool_run (name : String) (s : Session) :
    (findTool name).run s =
      (if s.missingTools.contains name then .error (.noTool name)
        else .ok (s.toolDirectory ++ "/" ++ name), s) := by
  rw [findTool, run_bind, run_get]
  simp only
  split <;> rfl

theorem program_cases (c : Command) (s : Session) :
    (∃ f, (program c).run s = (.error f, s) ∧ Missing c s) ∨
      ∃ name rest, c.args = name :: rest ∧ s.missingTools.contains name = false ∧
        (program c).run s = (.ok ((s.toolDirectory ++ "/" ++ name) :: rest), s) := by
  rw [program]
  cases args : c.args with
  | nil => exact .inl ⟨_, rfl, fun name rest same => by rw [args] at same; cases same⟩
  | cons name rest =>
      simp only [run_bind, findTool_run]
      cases missing : s.missingTools.contains name with
      | true =>
          refine .inl ⟨.noTool name, rfl, fun name' rest' same => ?_⟩
          rw [args] at same
          cases same
          exact missing
      | false => exact .inr ⟨name, rest, rfl, missing, rfl⟩

/-- What comes of carrying out a command: its program is missing, or it is started once. -/
def CarriesOut (manner : Manner) (c : Command) (a : Act Outcome) : Prop :=
  ∀ s, (∃ f s', a.run s = (.error f, s') ∧ Ran [] s s' ∧ Missing c s) ∨
    ∃ st b s', Launches manner c s st ∧ Ran [(st, b)] s s' ∧
      a.run s = ((b.linesRead manner).map fun lines => ⟨b.status == 0, b.status, lines, c⟩, s')

/-- A command that is carried out fails and nothing of it is read, or its program is read to its
end. -/
theorem CarriesOut.read_cases {manner : Manner} {c : Command} {a : Act Outcome}
    (h : CarriesOut manner c a) (s : Session) :
    (∃ made f s', a.run s = (.error f, s') ∧ Ran made s s' ∧ ∀ m ∈ made, wasRead m = false) ∨
      ∃ st b lines s', Launches manner c s st ∧ Ran [(st, b)] s s' ∧ wasRead (st, b) = true ∧
        b.linesRead manner = .ok lines ∧
        a.run s = (.ok ⟨b.status == 0, b.status, lines, c⟩, s') := by
  rcases h s with ⟨f, s', runs, ran, -⟩ | ⟨st, b, s', launches, ran, runs⟩
  · exact .inl ⟨[], f, s', runs, ran, List.forall_mem_nil _⟩
  · have read : wasRead (st, b) = (b.linesRead manner).toBool := by rw [wasRead, launches.manner]
    cases told : b.linesRead manner with
    | error f =>
        rw [told] at read runs
        exact .inl ⟨[(st, b)], f, s', runs, ran, List.forall_mem_singleton.mpr read⟩
    | ok lines =>
        rw [told] at read runs
        exact .inr ⟨st, b, lines, s', launches, ran, read, told, runs⟩

theorem run_of_quiet {α : Type} {a : Act α} (quiet : Quiet a) (s : Session) :
    ∃ result s', a.run s = (result, s') ∧ Ran [] s s' :=
  ⟨_, _, rfl, quiet s⟩

theorem echo_run (line : String) (s : Session) :
    ∃ s', (echo line).run s = (.ok (), s') ∧ Ran [] s s' :=
  ⟨_, rfl, quiet_echo line s⟩

theorem forM_run {γ : Type} {f : γ → Act Unit} (xs : List γ)
    (each : ∀ x ∈ xs, ∀ s, ∃ s', (f x).run s = (.ok (), s') ∧ Ran [] s s') (s : Session) :
    ∃ s', (xs.forM f).run s = (.ok (), s') ∧ Ran [] s s' := by
  induction xs generalizing s with
  | nil => exact ⟨s, rfl, .refl s⟩
  | cons x xs ih =>
      obtain ⟨here, later⟩ := List.forall_mem_cons.mp each
      obtain ⟨s', first, ran⟩ := here s
      obtain ⟨s'', rest, ran'⟩ := ih later s'
      exact ⟨s'', (run_bind_ok first).trans rest, ran.trans ran'⟩

theorem carriesOut_execute (c : Command) (colour : Bool) :
    CarriesOut .streamed c (execute c colour) := by
  intro s
  rcases program_cases c s with ⟨f, missing, absent⟩ | ⟨name, rest, args, found, program⟩
  · exact .inl ⟨f, s, run_bind_error missing, .refl s, absent⟩
  · obtain ⟨s₁, said, ran₁⟩ := echo_run ("Running " ++ c.display ++ " @ " ++ c.directory) s
    have ran₂ := quiet_recordExecution c s₁
    obtain ⟨st, b, s₃, manner, started, directory, ran₃, result⟩ :=
      start_cases .streamed ((s.toolDirectory ++ "/" ++ name) :: rest) c.directory
        ((recordExecution c).run s₁).2
    have before := ran₁.trans (ran₂.trans ran₃)
    have recorded : (recordExecution c).run s₁ = (.ok (), ((recordExecution c).run s₁).2) := rfl
    have launches : Launches .streamed c s st :=
      ⟨manner, ⟨name, rest, args, found, started⟩, directory⟩
    rw [execute, run_bind_ok program, run_bind_ok said, run_bind_ok recorded]
    rcases result with ⟨reason, refusal, refused⟩ | ⟨refusal, ran⟩
    · refine .inr ⟨st, b, s₃, launches, before, (run_bind_error refused).trans ?_⟩
      rw [b.linesRead_refused _ refusal]
      rfl
    · cases told : outputLines b.output with
      | mk lines flaw =>
          obtain ⟨s₄, shown, ran₄⟩ := forM_run lines
            (fun line _ => echo_run (if colour then colorize line else line)) s₃
          refine .inr ⟨st, b, s₄, launches, before.trans ran₄, ?_⟩
          rw [run_bind_ok ran]
          dsimp only
          rw [told]
          refine (run_bind_ok shown).trans ?_
          cases flaw with
          | none =>
              rw [Behaviour.linesRead_text refusal told]
              rfl
          | some fault =>
              rw [Behaviour.linesRead_flaw refusal told]
              rfl

theorem carriesOut_executeAttached (c : Command) :
    CarriesOut .attached c (executeAttached c) := by
  intro s
  rcases program_cases c s with ⟨f, missing, absent⟩ | ⟨name, rest, args, found, program⟩
  · exact .inl ⟨f, s, run_bind_error missing, .refl s, absent⟩
  · have ran₁ := quiet_recordExecution c s
    obtain ⟨st, b, s₂, manner, started, directory, ran₂, result⟩ :=
      start_cases .attached ((s.toolDirectory ++ "/" ++ name) :: rest) c.directory
        ((recordExecution c).run s).2
    have recorded : (recordExecution c).run s = (.ok (), ((recordExecution c).run s).2) := rfl
    have launches : Launches .attached c s st :=
      ⟨manner, ⟨name, rest, args, found, started⟩, directory⟩
    rw [executeAttached, run_bind_ok program, run_bind_ok recorded]
    refine .inr ⟨st, b, s₂, launches, ran₁.trans ran₂, ?_⟩
    rcases result with ⟨reason, refusal, refused⟩ | ⟨refusal, ran⟩
    · rw [run_bind_error refused, b.linesRead_refused _ refusal]
      rfl
    · rw [run_bind_ok ran, Behaviour.linesRead_attached refusal]
      rfl

def OnlyTool (tool : String) (made : List (Start × Behaviour)) : Prop :=
  ∀ m ∈ made, m.1.manner = .attached ∧ m.1.args.head? = some tool

/-- An action starts nothing but one tool, and fails exactly if that is refused. -/
def Reports (tool : String) (a : Act Unit) : Prop :=
  ∀ s, ∃ made result s', a.run s = (result, s') ∧ Ran made s s' ∧ OnlyTool tool made ∧
    ((result = .ok () ∧ ∀ m ∈ made, m.2.refusal = none) ∨
      (∃ f, result = .error f) ∧ ∃ m ∈ made, m.2.refusal ≠ none)

variable {tool : String}

theorem reports_pure : Reports tool (pure ()) :=
  fun s => ⟨[], _, s, rfl, .refl s, by simp [OnlyTool], .inl ⟨rfl, by simp⟩⟩

theorem Reports.bind {a b : Act Unit} (h : Reports tool a) (h' : Reports tool b) :
    Reports tool (a >>= fun _ => b) := by
  intro s
  obtain ⟨made, result, s', first, ran, only, result_cases⟩ := h s
  rcases result_cases with ⟨rfl, none⟩ | ⟨⟨f, rfl⟩, refused⟩
  · obtain ⟨more, result, s'', second, ran', only', result_cases⟩ := h' s'
    refine ⟨made ++ more, result, s'', (run_bind_ok first).trans second, ran.trans ran', ?_, ?_⟩
    · intro m member
      exact (List.mem_append.mp member).elim (only m) (only' m)
    · rcases result_cases with ⟨done, none'⟩ | ⟨failed, m, member, refusal⟩
      · exact .inl ⟨done, fun m member => (List.mem_append.mp member).elim (none m) (none' m)⟩
      · exact .inr ⟨failed, m, List.mem_append_right _ member, refusal⟩
  · exact ⟨made, _, s', run_bind_error first, ran, only, .inr ⟨⟨f, rfl⟩, refused⟩⟩

theorem reports_echo (line : String) : Reports tool (echo line) := by
  intro s
  obtain ⟨s', said, ran⟩ := echo_run line s
  exact ⟨[], _, s', said, ran, by simp [OnlyTool], .inl ⟨rfl, by simp⟩⟩

theorem reports_start (args : List String) (directory : String) :
    Reports tool (discard (start .attached (tool :: args) directory)) := by
  intro s
  obtain ⟨st, b, s', manner, started, -, ran, result⟩ :=
    start_cases .attached (tool :: args) directory s
  have only : OnlyTool tool [(st, b)] := by
    intro m member
    rw [List.mem_singleton.mp member]
    exact ⟨manner, by rw [started]; rfl⟩
  rcases result with ⟨reason, refusal, refused⟩ | ⟨refusal, done⟩
  · refine ⟨[(st, b)], _, s', run_bind_error refused, ran, only, .inr ⟨⟨_, rfl⟩, (st, b), ?_, ?_⟩⟩
    · exact List.mem_singleton_self _
    · simp [refusal]
  · refine ⟨[(st, b)], _, s', run_bind_ok done, ran, only, .inl ⟨rfl, ?_⟩⟩
    simpa using refusal

theorem reports_showCoverage (directory : String) (file : Option String) :
    Reports tool (showCoverage tool directory file) := by
  unfold showCoverage
  split
  · exact reports_pure
  · exact reports_pure
  · exact reports_start _ _

theorem reports_showProfile (label directory : String) (file : Option String) :
    Reports tool (showProfile tool label directory file) := by
  unfold showProfile
  split
  · exact reports_pure
  · exact reports_pure
  · exact (reports_echo _).bind (reports_start _ _)

/-- The reports are shown by the tool that ran the command; they fail exactly if it is refused. -/
theorem showReports_cases (c : Command) (s : Session)
    (found : s.missingTools.contains "go" = false) :
    ∃ made result s', (showReports c).run s = (result, s') ∧ Ran made s s' ∧
      OnlyTool (s.toolDirectory ++ "/" ++ "go") made ∧
      ((result = .ok () ∧ ∀ m ∈ made, m.2.refusal = none) ∨
        (∃ f, result = .error f) ∧ ∃ m ∈ made, m.2.refusal ≠ none) := by
  have tool : (findTool "go").run s = (.ok (s.toolDirectory ++ "/" ++ "go"), s) := by
    rw [findTool_run, if_neg (by rw [found]; exact Bool.false_ne_true)]
  rw [showReports, run_bind_ok tool]
  exact ((reports_showCoverage _ _).bind ((reports_showProfile _ _ _).bind
    (reports_showProfile _ _ _))) s

theorem quiet_trimmedText (bytes : List UInt8) : Quiet (trimmedText bytes) :=
  (keeps_lift _ _).bind fun _ => keeps_pure _

/-- Asking for the import path starts at most the tool, which runs if it tells the path. -/
theorem importPath_cases (package directory : String) (s : Session) :
    ∃ made result s', (importPath package directory).run s = (result, s') ∧ Ran made s s' ∧
      OnlyTool (s.toolDirectory ++ "/" ++ "go") made ∧
      ∀ path, result = .ok path → ∀ m ∈ made, m.2.refusal = none := by
  cases missing : s.missingTools.contains "go" with
  | true =>
      have none : (findTool "go").run s = (.error (.noTool "go"), s) := by
        rw [findTool_run, if_pos missing]
      exact ⟨[], _, s, run_bind_error none, .refl s, by simp [OnlyTool], by simp⟩
  | false =>
      have tool : (findTool "go").run s = (.ok (s.toolDirectory ++ "/" ++ "go"), s) := by
        rw [findTool_run, if_neg (by rw [missing]; exact Bool.false_ne_true)]
      rw [importPath, run_bind_ok tool]
      obtain ⟨st, b, s₁, manner, started, -, ran, result⟩ := start_cases .attached
        [s.toolDirectory ++ "/" ++ "go", "list", "-f", "\x7b\x7b.ImportPath\x7d\x7d", package]
        directory s
      have only : OnlyTool (s.toolDirectory ++ "/" ++ "go") [(st, b)] := by
        intro m member
        rw [List.mem_singleton.mp member]
        exact ⟨manner, by rw [started]; rfl⟩
      rcases result with ⟨reason, -, refused⟩ | ⟨refusal, done⟩
      · exact ⟨[(st, b)], _, s₁, run_bind_error refused, ran, only, by simp⟩
      · have quiet : Quiet (do
            let output ← trimmedText b.output
            let errors ← trimmedText b.errors
            if b.status = 0 then return output else throw (.notListed package errors)) :=
          (quiet_trimmedText _).bind fun _ => (quiet_trimmedText _).bind fun _ =>
            keeps_ite (keeps_pure _) (keeps_throw _)
        obtain ⟨result, s₂, read, ran'⟩ := run_of_quiet quiet s₁
        rw [run_bind_ok done]
        exact ⟨[(st, b)], result, s₂, read, ran.trans ran', only, fun _ _ => by simpa using refusal⟩

end Act

end TestRoster
