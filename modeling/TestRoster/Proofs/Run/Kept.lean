import TestRoster.Proofs.Run.Writes

/-!
What is kept of a command.

A command is kept by its arguments, with the program by its name and without the debugger's script.
Of all that a run starts, the commands of the user are those whose output is read and those that are
the debugger; the rest only asks the tool.
-/
namespace TestRoster

namespace Start

/-- Whether a start is that of a command, and not of a tool that is asked something. -/
def isCommand (toolDirectory : String) (st : Start) : Bool :=
  st.manner == .streamed || st.args.head? == some (toolDirectory ++ "/" ++ "dlv")

def withoutScript : List String → List String
  | [] => []
  | word :: rest => if word = "--init" then rest.drop 1 else word :: withoutScript rest

def kept (toolDirectory : String) (st : Start) : List String :=
  match st.args with
  | [] => []
  | path :: rest =>
      let name := String.ofList (path.toList.drop (toolDirectory.length + 1))
      name :: if name = "dlv" then withoutScript rest else rest

variable {toolDirectory name : String} {rest : List String} {st : Start}

theorem kept_eq (args : st.args = (toolDirectory ++ "/" ++ name) :: rest) :
    st.kept toolDirectory = name :: if name = "dlv" then withoutScript rest else rest := by
  have written :
    String.ofList ((toolDirectory ++ "/" ++ name).toList.drop (toolDirectory.length + 1)) =
      name := by
    simp [String.toList_append, ← String.length_toList]
  simp only [kept, args, written]

end Start

/-- A command ran in a session, as what was started tells. -/
structure Ended (s : Session) (c : Command) (passed : Bool) (m : Start × Behaviour) : Prop where
  command : m.1.isCommand s.toolDirectory = true
  read : wasRead m = true
  kept : m.1.kept s.toolDirectory = c.args
  directory : m.1.directory = c.directory
  passed : passed = (m.2.status == 0)

variable {made : List (Start × Behaviour)} {s s' : Session}

theorem Ended.congr {c : Command} {passed : Bool} {m : Start × Behaviour}
    (tools : s'.toolDirectory = s.toolDirectory) (h : Ended s' c passed m) :
      Ended s c passed m := by
  obtain ⟨command, read, kept, directory, passed⟩ := h
  rw [tools] at command kept
  exact ⟨command, read, kept, directory, passed⟩

theorem Act.OnlyTool.no_command {toolDirectory : String}
    (h : OnlyTool (toolDirectory ++ "/" ++ "go") made) :
    ∀ m ∈ made, m.1.isCommand toolDirectory = false := by
  intro m member
  obtain ⟨attached, tool⟩ := h m member
  simp [Start.isCommand, attached, tool]

namespace Act

/-- Whatever an action ends with satisfies a property. -/
def Returns {α : Type} (P : α → Prop) (a : Act α) : Prop :=
  ∀ s x s', a.run s = (.ok x, s') → P x

theorem returns_pure {α : Type} {P : α → Prop} {a : α} (h : P a) : Returns P (pure a) := by
  intro s x s' runs
  cases runs
  exact h

theorem returns_bind {α β : Type} {P : β → Prop} {a : Act α} {f : α → Act β}
    (h : ∀ x, Returns P (f x)) : Returns P (a >>= f) := by
  intro s x s' runs
  rw [run_bind] at runs
  cases first : a.run s with
  | mk result s₁ =>
      rw [first] at runs
      cases result with
      | ok y => exact h y s₁ x s' runs
      | error e => cases runs

theorem returns_testCommand (test : Option TestCase) (target : String) (root : Option String)
    (options : RunOptions) (reports : Option String) :
    Returns (fun c => ∃ rest, c.args = "go" :: rest)
      (testCommand test target root options reports) :=
  returns_bind fun _ => returns_bind fun _ => returns_bind fun _ => returns_bind fun _ =>
    returns_bind fun _ => returns_pure ⟨_, rfl⟩

theorem run_ensuring {α : Type} (a : Act α) (after : Act Unit) (s : Session) :
    (ensuring a after).run s = ((a.run s).1, (after.run (a.run s).2).2) := rfl

/-- Taking out a file that was put where nothing was leaves the files as they were. -/
theorem removeFile_run {fs : FileSystem} {p : Path} {bytes : List UInt8} (is_open : fs.Open p)
    (nothing : fs.occupant? (fs.place p) = none)
    (put : FileSystem.Update (fs.place p) (some (.file bytes)) fs s.files) :
    Idle s ((removeFile p).run s).2 ∧ SameFiles fs ((removeFile p).run s).2.files := by
  have low : fs.place p ≠ [] := by
    intro top
    rw [top, FileSystem.occupant?, Entity.occupant?_nil] at nothing
    cases nothing
  have is_open' : s.files.Open p := is_open.congr_update put (by rw [nothing]; simp)
  have located := FileSystem.locate_of_open is_open'
  rw [FileSystem.place_congr put.current] at located
  have runs : ((removeFile p).run s).2 = { s with files := s.files.without (fs.place p) } := by
    rw [removeFile, run_modify]
    simp only [located]
    rfl
  have taken := put.trans (FileSystem.update_without low put.here)
  rw [runs]
  refine ⟨⟨⟨by simp, by simp, by simp, rfl, rfl, rfl, rfl⟩, rfl⟩, taken.current, fun place => ?_⟩
  by_cases same : place = fs.place p
  · rw [same, nothing]
    exact taken.here
  · exact taken.elsewhere place same

/-- Running a command with a script that was made for it and is taken away again. -/
theorem withScript_cases {fs : FileSystem} {p : Path} (text : List UInt8) (c kept : Command)
    (is_open : fs.Open p) (nothing : fs.occupant? (fs.place p) = none)
    (put : FileSystem.Update (fs.place p) (some (.file [])) fs s.files)
    (without : ∀ st, Launches .attached c s st → st.isCommand s.toolDirectory = true ∧
      st.kept s.toolDirectory = kept.args ∧ st.directory = kept.directory) :
    ∃ made result s',
      (ensuring (do
        changeFiles fun fs => fs.write p text
        executeAttached c) (removeFile p)).run s = (result, s') ∧
      Progress made s s' ∧ s'.clock = s.clock ∧ SameFiles fs s'.files ∧
      (((∃ f, result = .error f) ∧ ∀ m ∈ made, wasRead m = false) ∨
        ∃ outcome m, result = .ok outcome ∧ made = [m] ∧ Ended s kept outcome.passed m) := by
  rw [run_ensuring, run_bind, changeFiles_run]
  cases written : s.files.write p text with
  | error fault =>
      obtain ⟨idle, same⟩ := removeFile_run is_open nothing put
      exact ⟨[], _, _, rfl, idle.toProgress, idle.clock, same, .inl ⟨⟨_, rfl⟩, by simp⟩⟩
  | ok fs' =>
      obtain ⟨old, -, update⟩ := FileSystem.modify_update written
      rw [FileSystem.place_congr put.current] at update
      have put' := put.trans update
      have idle : Idle s { s with files := fs' } :=
        ⟨⟨by simp, by simp, by simp, rfl, rfl, rfl, rfl⟩, rfl⟩
      have ends : ∀ {made s₁}, Ran made { s with files := fs' } s₁ →
          Progress made s ((removeFile p).run s₁).2 ∧
            ((removeFile p).run s₁).2.clock = s.clock ∧
            SameFiles fs ((removeFile p).run s₁).2.files := by
        intro made s₁ ran
        obtain ⟨idle', same⟩ :=
          removeFile_run (s := s₁) is_open nothing (by rw [ran.files]; exact put')
        have progress := (idle.toProgress.trans ran.toProgress).trans idle'.toProgress
        rw [List.nil_append, List.append_nil] at progress
        exact ⟨progress, (idle'.clock.trans ran.clock).trans idle.clock, same⟩
      rcases (carriesOut_executeAttached c).read_cases { s with files := fs' } with
        ⟨made, f, s₁, runs, ran, unread⟩ | ⟨st, b, lines, s₁, launches, ran, read, -, runs⟩
      · obtain ⟨progress, clock, same⟩ := ends ran
        simp only [runs]
        exact ⟨made, _, _, rfl, progress, clock, same, .inl ⟨⟨f, rfl⟩, unread⟩⟩
      · obtain ⟨progress, clock, same⟩ := ends ran
        obtain ⟨command, args, directory⟩ :=
          without st ⟨launches.manner, launches.args, launches.directory⟩
        simp only [runs]
        exact ⟨[(st, b)], _, _, rfl, progress, clock, same,
          .inr ⟨_, (st, b), rfl, rfl, command, read, args, directory, rfl⟩⟩

theorem launches_debugger (test : TestCase) (imported root script : String) {st : Start}
    (h : Launches .attached (Command.forDebugger test imported root (some script)) s st) :
    st.isCommand s.toolDirectory = true ∧
      st.kept s.toolDirectory = (Command.forDebugger test imported root none).args ∧
      st.directory = (Command.forDebugger test imported root none).directory := by
  obtain ⟨-, ⟨name, rest, args, -, started⟩, directory⟩ := h
  cases args
  refine ⟨?_, ?_, directory⟩
  · simp [Start.isCommand, started]
  · rw [Start.kept_eq started]
    rfl

/-- What comes of running a test in the debugger: the debugger ends, or it does not run. The files
are as they were. -/
structure Debugged (s : Session) (made : List (Start × Behaviour)) (result : Except Failure Outcome)
    (s' : Session) : Prop where
  progress : Progress made s s'
  clock : s'.clock = s.clock
  files : SameFiles s.files s'.files
  ended : ((∃ f, result = .error f) ∧
      ∀ m ∈ made, m.1.isCommand s.toolDirectory = true → wasRead m = false) ∨
    ∃ outcome before m, result = .ok outcome ∧ made = before ++ [m] ∧
      (∀ m ∈ before, m.1.isCommand s.toolDirectory = false ∧ m.2.refusal = none) ∧
      Ended s outcome.command outcome.passed m

theorem debugged_of_no_command {f : Failure} (ran : Ran made s s')
    (asked : ∀ m ∈ made, m.1.isCommand s.toolDirectory = false) :
      Debugged s made (.error f) s' where
  progress := ran.toProgress
  clock := ran.clock
  files := sameFiles_of_eq ran.files
  ended := .inl ⟨⟨f, rfl⟩, fun m member command => by simp [asked m member] at command⟩

theorem Debugged.after {more : List (Start × Behaviour)} {result : Except Failure Outcome}
    {s'' : Session} (ran : Ran made s s')
    (asked : ∀ m ∈ made, m.1.isCommand s.toolDirectory = false ∧ m.2.refusal = none)
    (h : Debugged s' more result s'') : Debugged s (made ++ more) result s'' where
  progress := ran.toProgress.trans h.progress
  clock := h.clock.trans ran.clock
  files := by
    rw [← ran.files]
    exact h.files
  ended := by
    have ended := h.ended
    rw [ran.toolDirectory] at ended
    rcases ended with ⟨failed, refused⟩ | ⟨outcome, before, m, done, rfl, asked', ended⟩
    · refine .inl ⟨failed, fun m member command => ?_⟩
      rcases List.mem_append.mp member with first | later
      · simp [(asked m first).1] at command
      · exact refused m later command
    · refine .inr ⟨outcome, made ++ before, m, done, by rw [List.append_assoc], ?_, ?_⟩
      · exact fun m member => (List.mem_append.mp member).elim (asked m) (asked' m)
      · exact ended.congr ran.toolDirectory

/-- The debugger is run with a script that is made for it. -/
theorem debugger_cases (test : TestCase) (imported root text : String) (s : Session) :
    ∃ made result s', (do
        let script ← newScript nameTries
        let place := Path.ofString script
        let outcome ← ensuring (do
            changeFiles fun fs => fs.write place (Utf8.encode text.toList)
            executeAttached (Command.forDebugger test imported root (some script)))
          (removeFile place)
        return { outcome with command := Command.forDebugger test imported root none } :
      Act Outcome).run s = (result, s') ∧ Debugged s made result s' := by
  rcases newScript_cases nameTries s with
    ⟨f, s₁, runs₁, ran₁⟩ | ⟨script, s₁, runs₁, idle, is_open, nothing, put⟩
  · exact ⟨[], _, s₁, run_bind_error runs₁, debugged_of_no_command ran₁ (by simp)⟩
  · obtain ⟨made, result, s₂, runs₂, progress, clock, same, ended⟩ := withScript_cases
      (Utf8.encode text.toList) (Command.forDebugger test imported root (some script))
      (Command.forDebugger test imported root none) is_open nothing put
      fun _ => launches_debugger test imported root script
    have whole := idle.toProgress.trans progress
    have clock : s₂.clock = s.clock := clock.trans idle.clock
    rw [run_bind_ok runs₁]
    rcases ended with ⟨⟨f, rfl⟩, refused⟩ | ⟨outcome, m, rfl, rfl, ended⟩
    · exact ⟨made, _, s₂, run_bind_error runs₂, whole, clock, same,
        .inl ⟨⟨f, rfl⟩, fun m member _ => refused m member⟩⟩
    · exact ⟨[m], _, s₂, run_bind_ok runs₂, whole, clock, same,
        .inr ⟨_, [], m, rfl, rfl, by simp, ended.congr idle.toolDirectory⟩⟩

theorem debugTest_cases (test : TestCase) (root : Option String) (s : Session) :
    ∃ made result s', (debugTest test root).run s = (result, s') ∧ Debugged s made result s' := by
  obtain ⟨rooted, s₁, runs₁, ran₁⟩ := run_of_quiet (quiet_rootOr root test.file) s
  cases rooted with
  | error f =>
      exact ⟨[], _, s₁, run_bind_error runs₁, debugged_of_no_command ran₁ (by simp)⟩
  | ok root =>
      obtain ⟨made, imported, s₂, runs₂, ran₂, only, listed⟩ := importPath_cases
        (s₁.files.packageTarget (Path.ofString test.file) root true) root.toString s₁
      have ran := ran₁.trans ran₂
      rw [List.nil_append] at ran
      have asked := only.no_command
      rw [ran₁.toolDirectory] at asked
      rw [debugTest, run_bind_ok runs₁, run_bind_ok (run_get s₁)]
      cases imported with
      | error f => exact ⟨made, _, s₂, run_bind_error runs₂, debugged_of_no_command ran asked⟩
      | ok imported =>
          obtain ⟨more, result, s₃, runs₃, debugged⟩ := debugger_cases test imported root.toString
            (breakScript (s₁.files.breakPlace test root)) s₂
          exact ⟨made ++ more, result, s₃, (run_bind_ok runs₂).trans runs₃,
            debugged.after ran fun m member => ⟨asked m member, listed _ rfl m member⟩⟩

theorem writes_debugTest {ps : List Path} (test : TestCase) (root : Option String) :
    Keeps (Writes ps) (debugTest test root) := by
  intro s
  obtain ⟨made, result, s', runs, debugged⟩ := debugTest_cases test root s
  rw [runs]
  exact debugged.files.writes

end Act

end TestRoster
