import TestRoster.Proofs.CommandLine.Turn

/-!
The history of command lines.

A run whose command was started adds one entry to the history, and no other command line adds one.
The entry that was added last is the one that is run again.
-/
namespace TestRoster

open FileSystem

/-- The first command among what was started that was not refused, and whose output is a text if it
is read. -/
def counted (toolDirectory : String) (made : List (Start × Behaviour)) :
    Option (Start × Behaviour) :=
  made.find? fun m => m.1.isCommand toolDirectory && wasRead m

def HistoryRecord.ofStart (s : Session) (m : Start × Behaviour) : HistoryRecord where
  args := m.1.kept s.toolDirectory
  directory := (s.files.resolve (Path.ofString m.1.directory)).toString
  passed := m.2.status == 0

namespace Turn

/-- What the history keeps of a turn: the command of a run, if it was started. -/
def record? (t : Turn) : Option HistoryRecord :=
  match t.invocation? with
  | some (.run ..) =>
      (counted t.session.toolDirectory t.made).map (HistoryRecord.ofStart t.session)
  | _ => none

/-- The entry that a turn adds to the history. -/
def addition? (t : Turn) : Option HistoryEntry :=
  t.record?.map (·.entry t.session.clock.stamp)

end Turn

variable {p : Path} {entries : List HistoryEntry} {made more : List (Start × Behaviour)}
  {s s' : Session} {m : Start × Behaviour} {toolDirectory : String}

theorem counted_eq_none
    (unread : ∀ m ∈ made, m.1.isCommand toolDirectory = true → wasRead m = false) :
    counted toolDirectory made = none := by
  refine List.find?_eq_none.mpr fun m member counts => ?_
  obtain ⟨command, read⟩ := Bool.and_eq_true_iff.mp counts
  rw [unread m member command] at read
  cases read

theorem counted_append (asked : ∀ m ∈ made, m.1.isCommand toolDirectory = false)
    (command : m.1.isCommand toolDirectory = true) (read : wasRead m = true) :
    counted toolDirectory (made ++ m :: more) = some m := by
  have before : counted toolDirectory made = none := by
    refine counted_eq_none fun m member command => ?_
    rw [asked m member] at command
    cases command
  rw [counted] at before
  rw [counted, List.find?_append, before]
  simp [command, read]

theorem Ended.ofStart {c : Command} {passed : Bool} (h : Ended s c passed m)
    (current : s'.files.current = s.files.current) :
    (⟨c.args, (s'.files.resolve (Path.ofString c.directory)).toString, passed⟩ : HistoryRecord) =
      .ofStart s m := by
  rw [HistoryRecord.ofStart, h.kept, h.directory, resolve_congr current, h.passed]

/-- A test that runs to its end is a command that was started. -/
theorem Act.Launches.ended {c : Command} {st : Start} {b : Behaviour} {rest : List String}
    (h : Launches .streamed c s st) (args : c.args = "go" :: rest)
    (read : wasRead (st, b) = true) : Ended s c (b.status == 0) (st, b) := by
  refine ⟨by simp [Start.isCommand, h.manner], read, ?_, h.directory, rfl⟩
  rw [Start.kept_eq (h.of_args args).2, args]
  rfl

/-- What a run leaves in the history: the entry of the command that was started, if any was. It
passes exactly if the command does and all that it starts can be started. -/
inductive Recorded (p : Path) (entries : List HistoryEntry) (s : Session)
    (made : List (Start × Behaviour)) (result : Except Failure Bool) (s' : Session) : Prop
  | nothing (none : counted s.toolDirectory made = none) (logged : Logged p entries s'.files)
  | entry (m : Start × Behaviour) (counts : counted s.toolDirectory made = some m)
      (logged : Logged p (entries ++ [(HistoryRecord.ofStart s m).entry s.clock.stamp]) s'.files)
      (exit : result = .ok true ↔ (m.2.status == 0) = true ∧ ∀ m ∈ made, m.2.refusal = none)

/-- What happens before a run is not seen in what it records. -/
theorem Recorded.after {result : Except Failure Bool} {s'' : Session} (idle : Idle s s')
    (current : s'.files.current = s.files.current) (h : Recorded p entries s' made result s'') :
    Recorded p entries s made result s'' := by
  have same : HistoryRecord.ofStart s' = HistoryRecord.ofStart s := by
    funext m
    rw [HistoryRecord.ofStart, HistoryRecord.ofStart, resolve_congr current, idle.toolDirectory]
  cases h with
  | nothing none logged => exact .nothing (by rw [← idle.toolDirectory]; exact none) logged
  | entry m counts logged exit =>
      rw [same, idle.clock] at logged
      exact .entry m (by rw [← idle.toolDirectory]; exact counts) logged exit

namespace Act

def Records (p : Path) (a : Act Bool) : Prop :=
  ∀ s entries, Logged p entries s.files → ∃ made result s', a.run s = (result, s') ∧
    Progress made s s' ∧ Recorded p entries s made result s'

theorem records_of_quiet {a : Act Bool} (quiet : Quiet a) : Records p a := by
  intro s entries logged
  obtain ⟨result, s', runs, ran⟩ := run_of_quiet quiet s
  exact ⟨[], result, s', runs, ran.toProgress, .nothing rfl (by rw [ran.files]; exact logged)⟩

theorem Quiet.records {α : Type} {P : α → Prop} {a : Act α} {f : α → Act Bool} (quiet : Quiet a)
    (returns : Returns P a) (h : ∀ x, P x → Records p (f x)) : Records p (a >>= f) := by
  intro s entries logged
  obtain ⟨result, s', runs, ran⟩ := run_of_quiet quiet s
  cases result with
  | error f =>
      exact ⟨[], _, s', run_bind_error runs, ran.toProgress,
        .nothing rfl (by rw [ran.files]; exact logged)⟩
  | ok x =>
      obtain ⟨made, result, s'', runs', progress, recorded⟩ :=
        h x (returns s x s' runs) s' entries (by rw [ran.files]; exact logged)
      have whole := ran.toProgress.trans progress
      rw [List.nil_append] at whole
      exact ⟨made, result, s'', (run_bind_ok runs).trans runs', whole,
        recorded.after ran.idle (by rw [ran.files])⟩

theorem remember_run {settings : Settings} (logged : Logged settings.historyFile entries s.files)
    (c : Command) (passed : Bool) :
    ∃ s', (remember settings c passed).run s = (.ok (), s') ∧ Progress [] s s' ∧
      Logged settings.historyFile (entries ++
        [(⟨c.args, (s.files.resolve (Path.ofString c.directory)).toString, passed⟩ :
          HistoryRecord).entry s.clock.stamp]) s'.files := by
  obtain ⟨s₁, runs, progress, files⟩ := historyEntry_run c passed s
  rw [← files] at logged
  obtain ⟨s₂, runs', idle, logged'⟩ := appendEntry_run logged
    ⟨c.args, (s.files.resolve (Path.ofString c.directory)).toString, passed⟩ s.clock.stamp
  exact ⟨s₂, (run_bind_ok runs).trans runs', progress.trans idle.toProgress, logged'⟩

theorem records_runDebugger (settings : Settings) (test : TestCase) :
    Records settings.historyFile (runDebugger settings test) := by
  intro s entries logged
  obtain ⟨made, result, s₁, runs, progress, clock, same, ended⟩ := debugTest_cases test none s
  have logged := logged.spares (same.spares settings.historyFile)
  rcases ended with ⟨⟨f, rfl⟩, unread⟩ | ⟨outcome, before, m, rfl, rfl, asked, ended⟩
  · exact ⟨made, .error f, s₁, run_bind_error runs, progress,
      .nothing (counted_eq_none unread) logged⟩
  · obtain ⟨s₂, remembered, progress', logged'⟩ :=
      remember_run logged outcome.command outcome.passed
    rw [ended.ofStart same.current, clock] at logged'
    have whole := progress.trans progress'
    rw [List.append_nil] at whole
    have counts : counted s.toolDirectory (before ++ [m]) = some m :=
      counted_append (fun m member => (asked m member).1) ended.command ended.read
    refine ⟨before ++ [m], .ok outcome.passed, s₂, ?_, whole, .entry m counts logged' ?_⟩
    · rw [runDebugger, run_bind_ok runs, run_bind_ok remembered]
      rfl
    · rw [Except.ok.injEq, ended.passed]
      refine ⟨fun passed => ⟨passed, fun m' member => ?_⟩, And.left⟩
      rcases List.mem_append.mp member with first | last
      · exact (asked m' first).2
      · rw [List.mem_singleton.mp last]
        exact refusal_of_wasRead ended.read

/-- Once the output of a test is read, its entry is added, whatever its reports come to. -/
theorem tests_read {settings : Settings} {c : Command} {st : Start} {b : Behaviour}
    {rest : List String} (logged : Logged settings.historyFile entries s.files)
    (launches : Launches .streamed c s st) (args : c.args = "go" :: rest)
    (ran : Ran [(st, b)] s s') (read : wasRead (st, b) = true) :
    ∃ made result s'', (do
        remember settings c (b.status == 0)
        showReports c
        return b.status == 0 : Act Bool).run s' = (result, s'') ∧ Progress made s s'' ∧
      Recorded settings.historyFile entries s made result s'' := by
  have ended := launches.ended args read
  rw [← ran.files] at logged
  obtain ⟨s₂, remembered, progress, logged'⟩ := remember_run logged c (b.status == 0)
  rw [ended.ofStart (by rw [ran.files]), ran.clock] at logged'
  have tools : s₂.missingTools = s.missingTools := progress.missingTools.trans ran.missingTools
  obtain ⟨reports, result, s₃, shown, ran', -, results⟩ :=
    showReports_cases c s₂ (by rw [tools]; exact (launches.of_args args).1)
  have whole := (ran.toProgress.trans progress).trans ran'.toProgress
  rw [List.append_nil] at whole
  rw [← ran'.files] at logged'
  have counts : counted s.toolDirectory ([] ++ (st, b) :: reports) = some (st, b) :=
    counted_append (List.forall_mem_nil _) ended.command read
  rw [run_bind_ok remembered]
  rcases results with ⟨rfl, none⟩ | ⟨⟨f, rfl⟩, m, member, refused⟩
  · refine ⟨[(st, b)] ++ reports, .ok (b.status == 0), s₃, run_bind_ok shown, whole,
      .entry (st, b) counts logged' ?_⟩
    rw [Except.ok.injEq]
    refine ⟨fun passed => ⟨passed, fun m member => ?_⟩, And.left⟩
    rcases List.mem_cons.mp member with rfl | later
    · exact refusal_of_wasRead read
    · exact none m later
  · refine ⟨[(st, b)] ++ reports, .error f, s₃, run_bind_error shown, whole,
      .entry (st, b) counts logged' (iff_of_false (by simp) ?_)⟩
    exact fun passed => refused (passed.2 m (List.mem_append_right _ member))

theorem records_runTests (settings : Settings) (test : Option TestCase) (directory : Path)
    (options : RunOptions) : Records settings.historyFile
      (runTests settings test directory options) := by
  refine (quiet_testCommand _ _ _ _ _).records (returns_testCommand _ _ _ _ _) ?_
  rintro c ⟨rest, args⟩ s entries logged
  rcases (carriesOut_execute c settings.colorizeOutput).read_cases s with
    ⟨made, f, s₁, runs, ran, unread⟩ | ⟨st, b, lines, s₁, launches, ran, read, -, runs⟩
  · exact ⟨made, .error f, s₁, run_bind_error runs, ran.toProgress,
      .nothing (counted_eq_none fun m member _ => unread m member)
        (by rw [ran.files]; exact logged)⟩
  · rw [run_bind_ok runs]
    exact tests_read logged launches args ran read

theorem records_run (settings : Settings) (verbose : Bool) (directory : String)
    (select debug quiet cover cpu mem : Bool) (filter : String) :
    Records settings.historyFile
      (carryOut settings verbose (.run directory select debug quiet cover cpu mem filter)) := by
  have always : ∀ {α : Type} (a : Act α), Returns (fun _ => True) a := fun _ _ _ _ _ => trivial
  have told : ∀ line, Quiet (echo line >>= fun _ => pure true) :=
    fun line => (quiet_echo line).bind fun _ => keeps_pure true
  have either : ∀ {c : Prop} [Decidable c] {a b : Act Bool}, Records settings.historyFile a →
      Records settings.historyFile b → Records settings.historyFile (if c then a else b) := by
    intro c _ a b h h'
    split
    · exact h
    · exact h'
  refine either ?_ (records_runTests _ _ _ _)
  refine (quiet_discover _ _ _ _).records (always _) fun tests _ => ?_
  refine either (records_of_quiet (told _)) ?_
  refine (quiet_selectTest _ _ _).records (always _) fun test _ => ?_
  exact either (records_runDebugger settings test) (records_runTests _ _ _ _)

end Act

namespace Turn

variable {t : Turn} {settings : Settings}

theorem record?_of_not_run {invocation : Invocation} (invoked : t.invocation? = some invocation)
    (other : ∀ directory select debug quiet cover cpu mem filter,
      invocation ≠ .run directory select debug quiet cover cpu mem filter) : t.record? = none := by
  rw [record?, invoked]
  cases invocation with
  | run directory select debug quiet cover cpu mem filter =>
    exact absurd rfl (other _ _ _ _ _ _ _ _)
  | _ => rfl

theorem record?_of_made (nothing : t.made = []) : t.record? = none := by
  rw [record?, nothing]
  split <;> rfl

theorem status_eq {result : Except Failure Bool} {s : Session}
    (runs : t.session.carryOut t.words = (result.map .ok, s)) : t.report.status = 1 ↔
      result ≠ .ok true := by
  rw [report_eq, runs]
  exact status_carried _ _

/-- The history is apart from what the other commands write. -/
theorem apart_of_not_run (regular : t.Regular settings [settings.historyFile])
    {invocation : Invocation}
    (other : ∀ directory select debug quiet cover cpu mem filter,
      invocation ≠ .run directory select debug quiet cover cpu mem filter) :
    ∀ p ∈ invocation.written settings, t.session.files.Apart p settings.historyFile := by
  cases invocation with
  | run directory select debug quiet cover cpu mem filter =>
    exact absurd rfl (other _ _ _ _ _ _ _ _)
  | bench directory all benchMem cpu mem filter =>
      intro p member
      rcases List.mem_cons.mp member with rfl | last
      · exact regular.store.symm
      · rw [List.mem_singleton.mp last]
        exact regular.draft.symm
  | _ => simp [Invocation.written]

/-- What a turn adds to a history, and whether it fails. -/
structure Adds (settings : Settings) (entries : List HistoryEntry) (t : Turn) : Prop where
  logged : Logged settings.historyFile (entries ++ t.addition?.toList) t.after.files
  status : ∀ r, t.record? = some r →
    (t.report.status = 1 ↔ r.passed = false ∨ ∃ m ∈ t.made, m.2.refusal ≠ none)

theorem adds_nothing (none : t.record? = none)
    (logged : Logged settings.historyFile entries t.after.files) : t.Adds settings entries := by
  refine ⟨?_, by simp [none]⟩
  rw [addition?, none]
  simpa using logged

theorem adds_run {result : Except Failure Bool} {s s' : Session} (prelude : t.Prelude s)
    {directory : String} {select debug quiet cover cpu mem : Bool} {filter : String}
    (invoked : t.invocation? = some (.run directory select debug quiet cover cpu mem filter))
    (runs : t.session.carryOut t.words = (result.map .ok, s')) (progress : Progress made s s')
    (recorded : Recorded settings.historyFile entries s made result s') :
      t.Adds settings entries := by
  have made := made_eq prelude progress runs
  have after : t.after = s' := by rw [after_eq, runs]
  have record : t.record? =
      (counted t.session.toolDirectory t.made).map (HistoryRecord.ofStart t.session) := by
    rw [record?, invoked]
  rw [made] at record
  cases recorded.after prelude.idle prelude.current with
  | nothing none logged =>
      rw [none] at record
      exact adds_nothing record (after ▸ logged)
  | entry m counts logged exit =>
      rw [counts, Option.map_some] at record
      refine ⟨?_, fun r same => ?_⟩
      · rw [addition?, record, after]
        exact logged
      · cases record.symm.trans same
        rw [status_eq runs, ne_eq, exit, made]
        simp only [HistoryRecord.ofStart, Classical.not_and_iff_not_or_not, Bool.not_eq_true,
          Classical.not_forall, exists_prop, ne_eq]

/-- A turn that starts in a logged history ends in one, with the entry of the turn. -/
theorem adds (regular : t.Regular settings [settings.historyFile])
    (logged : Logged settings.historyFile entries t.session.files) : t.Adds settings entries := by
  have own := List.mem_singleton_self settings.historyFile
  rcases t.carryOut_cases with ⟨result, s, runs, prelude, -⟩ |
    ⟨g, read, s, invocation, arguments, loaded, invoked, prelude, runs⟩
  · refine adds_nothing (record?_of_made (made_eq prelude (.refl s) runs)) ?_
    rw [after_eq, runs]
    exact logged.spares (regular.prelude_spares prelude own)
  · have logged := logged.spares (regular.prelude_spares prelude own)
    have same : read = settings := regular.read read (by rw [settings?, loaded]; rfl)
    subst same
    by_cases run : ∃ directory select debug quiet cover cpu mem filter,
        invocation = .run directory select debug quiet cover cpu mem filter
    · obtain ⟨directory, select, debug, quiet, cover, cpu, mem, filter, rfl⟩ := run
      obtain ⟨made, result, s', carried, progress, recorded⟩ :=
        Act.records_run read g.verbose directory select debug quiet cover cpu mem filter s entries
          logged
      rw [carried] at runs
      exact adds_run prelude invoked runs progress recorded
    · have other : ∀ directory select debug quiet cover cpu mem filter,
          invocation ≠ .run directory select debug quiet cover cpu mem filter :=
        fun _ _ _ _ _ _ _ _ same => run ⟨_, _, _, _, _, _, _, _, same⟩
      refine adds_nothing (record?_of_not_run invoked other) ?_
      rw [after_eq, runs]
      refine logged.spares ((Act.writes_carryOut read g.verbose invocation s).spares _
        fun p member => ?_)
      exact (apart_of_not_run regular other p member).congr prelude.current

end Turn

/-- After some turns the history has their entries. -/
theorem Undisturbed.logged {settings : Settings} {fs last : FileSystem} {turns : List Turn}
    (absent : fs.occupant? (fs.place settings.historyFile) = none)
    (writable : fs.Writable settings.historyFile)
    (undisturbed : Undisturbed [settings.historyFile] last fs turns)
    (regular : ∀ t ∈ turns, t.Regular settings [settings.historyFile]) :
    Logged settings.historyFile (turns.filterMap Turn.addition?) last :=
  undisturbed.accumulates (Logged settings.historyFile) Turn.addition? []
    (fun logged spared => logged.spares (spared _ (List.mem_singleton_self _)))
    (fun t member _ logged => (t.adds (regular t member) logged).logged)
    (logged_nil (ready_of_writable writable) absent)

end TestRoster
