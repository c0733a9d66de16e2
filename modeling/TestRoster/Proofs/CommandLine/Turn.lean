import TestRoster.CommandLine.Bundled
import TestRoster.Proofs.CommandLine.Commands
import TestRoster.Proofs.Settings.File

/-!
Command lines one after another.

A turn is a command line with the session that it is given in. It ends before its command, or the
command is carried out with the settings that were read; reading them makes their file if it is
missing. Between the turns anything may happen, but to the files at some paths.
-/
namespace TestRoster

open FileSystem

def GlobalArguments.settingsFile (g : GlobalArguments) (homes : Homes) : Path :=
  (g.config.map Path.ofString).getD ((Path.ofString homes.programDirectory).child "config")

structure Turn where
  session : Session
  words : List String

namespace Turn

def report (t : Turn) : Report :=
  (t.session.runWords t.words).1

def after (t : Turn) : Session :=
  (t.session.runWords t.words).2

def made (t : Turn) : List (Start × Behaviour) :=
  started t.session t.after

def arguments? (t : Turn) : Option GlobalArguments :=
  (t.session.library.terminal.arguments t.session.files t.words).toOption

def settingsFile? (t : Turn) : Option Path :=
  t.arguments?.map (·.settingsFile t.session.homes)

/-- The settings that a turn reads, and the session after that, if it gets so far. -/
def loaded? (t : Turn) : Option (Settings × Session) :=
  t.arguments?.bind fun g =>
    match (Act.settingsOf g).run t.session with
    | (.ok settings, s) => some (settings, s)
    | (.error _, _) => none

/-- The command that a turn carries out, if it gets so far. -/
def invocation? (t : Turn) : Option Invocation :=
  t.arguments?.bind fun g => t.loaded?.bind fun loaded =>
    (loaded.2.library.terminal.invocation loaded.2.files g).toOption

def settings? (t : Turn) : Option Settings :=
  t.loaded?.map Prod.fst

end Turn

variable {s s' : Session} {p q : Path}

namespace Act

theorem reads_settingsOf (g : GlobalArguments) (s : Session) :
    Reads (g.settingsFile s.homes) s ((settingsOf g).run s).2 := by
  obtain ⟨s', told, ran⟩ : ∃ s', (settingsOf g).run s =
      (loadSettings (g.config.map Path.ofString)).run s' ∧ Ran [] s s' := by
    rw [settingsOf]
    dsimp only
    split
    · have recorded : (record .debug "Debug logging enabled").run s =
          (.ok (), ((record .debug "Debug logging enabled").run s).2) := rfl
      exact ⟨_, run_bind_ok recorded, quiet_record _ _ s⟩
    · exact ⟨s, rfl, .refl s⟩
  rw [told, loadSettings_given, ran.homes, GlobalArguments.settingsFile]
  exact (reads_loadSettings _ s').after ran

end Act

namespace Turn

variable {t : Turn}

theorem after_eq (t : Turn) : t.after = (t.session.carryOut t.words).2 := rfl

theorem report_eq (t : Turn) :
    t.report = Report.ofRun t.after.shown (t.session.carryOut t.words).1 := rfl

/-- The way of a turn up to its command. -/
structure Prelude (t : Turn) (s : Session) : Prop where
  idle : Idle t.session s
  directories : KeepsDirectories t.session s
  spares : ∀ p, (∀ c, t.settingsFile? = some c →
    t.session.files.exists' c = true ∨ t.session.files.Apart c p) → Spares p t.session.files s.files

theorem prelude_refl (t : Turn) : t.Prelude t.session :=
  ⟨Act.Lasting.refl _, Act.Lasting.refl _, fun p _ => .refl p _⟩

theorem prelude_settingsOf {g : GlobalArguments} (given : t.arguments? = some g) :
    t.Prelude ((Act.settingsOf g).run t.session).2 := by
  have reads := Act.reads_settingsOf g t.session
  refine ⟨reads.idle, reads.directories, fun p each => ?_⟩
  rcases each _ (by rw [settingsFile?, given]; rfl) with there | apart
  · rw [reads.files there]
    exact .refl p _
  · exact reads.writes.spares p (by simpa using apart)

end Turn

namespace Act

theorem carried_run (a : Act Bool) (s : Session) :
    (a >>= fun passed => pure (.ok passed) : Act (Except UsageEnd Bool)).run s =
      ((a.run s).1.map .ok, (a.run s).2) := by
  rw [run_bind]
  cases a.run s with
  | mk result s' => cases result <;> rfl

variable {words : List String} {g : GlobalArguments} {settings : Settings}

theorem carryOutWords_run
    (given : s.library.terminal.arguments s.files words = .ok g) :
    (carryOutWords words).run s = (do
      let settings ← settingsOf g
      let s ← get
      match s.library.terminal.invocation s.files g with
      | .error ended => return .error ended
      | .ok invocation => return .ok (← carryOut settings g.verbose invocation) :
      Act (Except UsageEnd Bool)).run s := by
  rw [carryOutWords, run_bind_ok (run_get s)]
  cases told : s.library.terminal.arguments s.files words with
  | error ended => cases told.symm.trans given
  | ok read =>
      cases told.symm.trans given
      rfl

/-- Once the settings are read, the command is carried out unless the words for it are at fault. -/
theorem carryOutWords_loaded (given : s.library.terminal.arguments s.files words = .ok g)
    (loaded : (settingsOf g).run s = (.ok settings, s')) :
    (carryOutWords words).run s =
      match s'.library.terminal.invocation s'.files g with
      | .error ended => (.ok (.error ended), s')
      | .ok invocation =>
          (((carryOut settings g.verbose invocation).run s').1.map .ok,
            ((carryOut settings g.verbose invocation).run s').2) := by
  rw [carryOutWords_run given, run_bind_ok loaded, run_bind_ok (run_get s')]
  cases s'.library.terminal.invocation s'.files g with
  | error ended => rfl
  | ok invocation => exact carried_run _ s'

end Act

namespace Turn

variable {t : Turn}

/-- A turn ends before its command, or carries it out with its settings. -/
theorem carryOut_cases (t : Turn) :
    (∃ result s, t.session.carryOut t.words = (result, s) ∧ t.Prelude s ∧ t.invocation? = none) ∨
      ∃ g settings s invocation, t.arguments? = some g ∧ t.loaded? = some (settings, s) ∧
        t.invocation? = some invocation ∧ t.Prelude s ∧
        t.session.carryOut t.words =
          (((Act.carryOut settings g.verbose invocation).run s).1.map .ok,
            ((Act.carryOut settings g.verbose invocation).run s).2) := by
  cases given : t.session.library.terminal.arguments t.session.files t.words with
  | error ended =>
      have none : t.arguments? = none := by rw [arguments?, given]; rfl
      refine .inl ⟨.ok (.error ended), t.session, ?_,
        t.prelude_refl, by rw [invocation?, none]; rfl⟩
      rw [Session.carryOut, Act.carryOutWords, Act.run_bind_ok (Act.run_get _), given]
      rfl
  | ok g =>
      have arguments : t.arguments? = some g := by rw [arguments?, given]; rfl
      have prelude := prelude_settingsOf arguments
      cases ran : (Act.settingsOf g).run t.session with
      | mk settings s =>
          rw [ran] at prelude
          cases settings with
          | error f =>
              have none : t.loaded? = none := by rw [loaded?, arguments, Option.bind_some, ran]
              refine .inl ⟨.error f, s, ?_, prelude, by rw [invocation?, arguments, none]; rfl⟩
              rw [Session.carryOut, Act.carryOutWords_run given]
              exact Act.run_bind_error ran
          | ok settings =>
              have loaded : t.loaded? = some (settings, s) := by
                rw [loaded?, arguments, Option.bind_some, ran]
              have invoked : t.invocation? =
                  (s.library.terminal.invocation s.files g).toOption := by
                rw [invocation?, arguments, loaded]
                rfl
              have runs : t.session.carryOut t.words = _ := Act.carryOutWords_loaded given ran
              cases parsed : s.library.terminal.invocation s.files g with
              | error ended =>
                  rw [parsed] at invoked runs
                  exact .inl ⟨_, s, runs, prelude, invoked⟩
              | ok invocation =>
                  rw [parsed] at invoked runs
                  exact .inr ⟨g, settings, s, invocation, arguments, loaded, invoked, prelude, runs⟩

/-- A turn reads these settings and no others, and their files lie apart. The file that they are
read from is there, or it lies apart from some paths. -/
structure Regular (settings : Settings) (own : List Path) (t : Turn) : Prop where
  read : ∀ other, t.settings? = some other → other = settings
  store : t.session.files.Apart settings.historyFile settings.benchmarkStore
  draft : t.session.files.Apart settings.historyFile (BenchmarkStore.draft settings.benchmarkStore)
  made : ∀ p ∈ own, ∀ c, t.settingsFile? = some c →
    t.session.files.exists' c = true ∨ t.session.files.Apart c p

instance (settings : Settings) (own : List Path) (t : Turn) : Decidable (t.Regular settings own) :=
  decidable_of_iff ((∀ other ∈ t.settings?, other = settings) ∧
    t.session.files.Apart settings.historyFile settings.benchmarkStore ∧
    t.session.files.Apart settings.historyFile (BenchmarkStore.draft settings.benchmarkStore) ∧
    ∀ p ∈ own, ∀ c ∈ t.settingsFile?,
      t.session.files.exists' c = true ∨ t.session.files.Apart c p)
    ⟨fun ⟨same, store, draft, made⟩ => ⟨same, store, draft, made⟩,
      fun h => ⟨h.read, h.store, h.draft, h.made⟩⟩

theorem Regular.prelude_spares {settings : Settings} {own : List Path} (h : t.Regular settings own)
    {s : Session} (prelude : t.Prelude s) (member : p ∈ own) : Spares p t.session.files s.files :=
  prelude.spares p (h.made p member)

theorem Prelude.current {s : Session} (h : t.Prelude s) :
    s.files.current = t.session.files.current :=
  h.directories.current

/-- What a turn starts is what its command starts. -/
theorem made_eq {made : List (Start × Behaviour)} {result : Except Failure (Except UsageEnd Bool)}
    {s s' : Session} (prelude : t.Prelude s) (progress : Progress made s s')
    (runs : t.session.carryOut t.words = (result, s')) : t.made = made := by
  have whole := prelude.idle.toProgress.trans progress
  rw [List.nil_append] at whole
  rw [Turn.made, after_eq, runs]
  exact whole.started_eq

/-- Whether a turn fails, from what its command ends with. -/
theorem status_carried (shown : List Shown) (result : Except Failure Bool) :
    (Report.ofRun shown (result.map .ok)).status = 1 ↔ result ≠ .ok true := by
  cases result with
  | ok passed => cases passed <;> simp [Report.ofRun, Except.map]
  | error f =>
      have failed : (Report.ofRun shown (.error f)).status = 1 := by cases f <;> rfl
      exact iff_of_true failed (by simp)

end Turn

/-- From some files on, turns were taken that led to the last files, and in between nobody else
touched the files at some paths. -/
def Undisturbed (paths : List Path) (last : FileSystem) : FileSystem → List Turn → Prop
  | fs, [] => ∀ p ∈ paths, Spares p fs last
  | fs, t :: turns =>
      (∀ p ∈ paths, Spares p fs t.session.files) ∧ Undisturbed paths last t.after.files turns

instance decidableUndisturbed (paths : List Path) (last : FileSystem) :
    ∀ (fs : FileSystem) (turns : List Turn), Decidable (Undisturbed paths last fs turns)
  | _, [] => inferInstanceAs (Decidable (∀ p ∈ paths, _))
  | _, t :: turns =>
      have := decidableUndisturbed paths last t.after.files turns
      inferInstanceAs (Decidable ((∀ p ∈ paths, _) ∧ _))

/-- What every turn adds to, and what lasts as long as some files are left alone, holds of the last
files with all that was added. -/
theorem Undisturbed.accumulates {α : Type} {paths : List Path} {last fs : FileSystem}
    {turns : List Turn}
    (h : Undisturbed paths last fs turns) (Holds : List α → FileSystem → Prop)
    (added : Turn → Option α) (known : List α)
    (spares : ∀ {known fs fs'}, Holds known fs → (∀ p ∈ paths, Spares p fs fs') → Holds known fs')
    (step : ∀ t ∈ turns, ∀ known, Holds known t.session.files →
      Holds (known ++ (added t).toList) t.after.files)
    (first : Holds known fs) : Holds (known ++ turns.filterMap added) last := by
  induction turns generalizing fs known with
  | nil =>
      rw [List.filterMap_nil, List.append_nil]
      exact spares first h
  | cons t turns ih =>
      have next := step t List.mem_cons_self known (spares first h.1)
      have later := ih h.2 _ (fun t member => step t (List.mem_cons_of_mem _ member)) next
      cases new : added t with
      | none => simpa [new] using later
      | some x => simpa [new] using later

def Turn.next (t : Turn) (words : List String) : Turn where
  session := t.after
  words := "--config" :: "config" :: words

def Session.turn (s : Session) (words : List String) : Turn where
  session := s
  words := "--config" :: "config" :: words

end TestRoster
