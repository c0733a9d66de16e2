import TestRoster.Benchmark.Store
import TestRoster.Proofs.Files.Keep
import TestRoster.Proofs.Run.Started

/-!
Which files an action writes.

An action that writes at some paths only spares every path that lies apart from them. Running a
command writes no file itself, and the debugger's script is gone when the debugger has ended.
-/
namespace TestRoster

/-- What happened from one session to another wrote files at some paths only. -/
structure Writes (ps : List Path) (s s' : Session) : Prop where
  current : s'.files.current = s.files.current
  spares : ∀ q, (∀ p ∈ ps, s.files.Apart p q) → FileSystem.Spares q s.files s'.files

variable {ps : List Path} {made : List (Start × Behaviour)} {s s' s'' : Session}

theorem writes_of_files (same : s'.files = s.files) : Writes ps s s' where
  current := by rw [same]
  spares := fun q _ => by
    rw [same]
    exact .refl q s.files

theorem Writes.trans (h : Writes ps s s') (h' : Writes ps s' s'') : Writes ps s s'' where
  current := h'.current.trans h.current
  spares := fun q apart =>
    (h.spares q apart).trans (h'.spares q fun p member => (apart p member).congr h.current)

instance : Act.Lasting (Writes ps) where
  refl := fun _ => writes_of_files rfl
  trans := .trans

theorem Ran.writes (h : Ran made s s') : Writes ps s s' :=
  writes_of_files h.files

/-- Two file systems that hold the same. -/
structure SameFiles (fs fs' : FileSystem) : Prop where
  current : fs'.current = fs.current
  occupant? : ∀ place, fs'.occupant? place = fs.occupant? place

theorem sameFiles_of_eq {fs fs' : FileSystem} (same : fs' = fs) : SameFiles fs fs' := by
  subst same
  exact ⟨rfl, fun _ => rfl⟩

theorem SameFiles.spares {fs fs' : FileSystem} (h : SameFiles fs fs') (q : Path) :
    FileSystem.Spares q fs fs' :=
  FileSystem.spares_of_same h.current h.occupant? q

theorem SameFiles.writes (h : SameFiles s.files s'.files) : Writes ps s s' :=
  ⟨h.current, fun q _ => h.spares q⟩

/-- Nothing was started, and the clock stands. -/
structure Idle (s s' : Session) : Prop extends Progress [] s s' where
  clock : s'.clock = s.clock

theorem Ran.idle (h : Ran [] s s') : Idle s s' :=
  ⟨h.toProgress, h.clock⟩

instance : Act.Lasting (Progress []) where
  refl := .refl
  trans := .trans

instance : Act.Lasting Idle where
  refl := fun s => ⟨.refl s, rfl⟩
  trans := fun h h' => ⟨h.toProgress.trans h'.toProgress, h'.clock.trans h.clock⟩

namespace Act

variable {α : Type} {p : Path}

theorem Quiet.writes {a : Act α} (quiet : Quiet a) : Keeps (Writes ps) a :=
  quiet.mono Ran.writes

theorem changeFiles_run (change : FileSystem → Except FileFault FileSystem) (s : Session) :
    (changeFiles change).run s =
      match change s.files with
      | .ok fs => (.ok (), { s with files := fs })
      | .error fault => (.error (.file fault), s) := by
  rw [changeFiles, run_bind, run_get]
  simp only [run_bind, run_lift]
  cases change s.files <;> rfl

theorem idle_changeFiles (change : FileSystem → Except FileFault FileSystem) :
    Keeps Idle (changeFiles change) := by
  intro s
  rw [changeFiles_run]
  cases change s.files with
  | ok fs => exact ⟨⟨by simp, by simp, by simp, rfl, rfl, rfl, rfl⟩, rfl⟩
  | error fault => exact Lasting.refl s

theorem writes_changeFiles {change : FileSystem → Except FileFault FileSystem}
    (h : ∀ fs fs', change fs = .ok fs' → fs'.current = fs.current ∧
      ∀ q, (∀ p ∈ ps, fs.Apart p q) → FileSystem.Spares q fs fs') :
    Keeps (Writes ps) (changeFiles change) := by
  intro s
  rw [changeFiles_run]
  cases done : change s.files with
  | ok fs =>
      obtain ⟨current, spares⟩ := h s.files fs done
      exact ⟨current, spares⟩
  | error fault => exact Lasting.refl s

theorem writes_ensureDirectories (member : p ∈ ps) :
    Keeps (Writes ps) (changeFiles fun fs => fs.ensureDirectories p.parent) :=
  writes_changeFiles fun _ _ done => ⟨(FileSystem.ensureDirectories_grows done).2.current,
    fun _ apart => FileSystem.spares_ensureDirectories done (apart p member)⟩

theorem writes_modify (member : p ∈ ps) (change : List UInt8 → List UInt8) :
    Keeps (Writes ps) (changeFiles fun fs => fs.modify p change) :=
  writes_changeFiles fun _ _ done => by
    obtain ⟨old, -, update⟩ := FileSystem.modify_update done
    exact ⟨update.current, fun _ apart => FileSystem.spares_modify done (apart p member)⟩

theorem writes_rename {source target : Path} (member : source ∈ ps) (member' : target ∈ ps) :
    Keeps (Writes ps) (changeFiles fun fs => fs.rename source target) :=
  writes_changeFiles fun _ _ done => ⟨FileSystem.rename_current done,
    fun _ apart => FileSystem.spares_rename done (apart source member) (apart target member')⟩

theorem writes_appendEntry (p : Path) (e : HistoryEntry) : Keeps (Writes [p]) (appendEntry p e) :=
  (writes_ensureDirectories List.mem_cons_self).bind fun _ =>
    writes_modify List.mem_cons_self _

theorem quiet_readStore (p : Path) : Quiet (readStore p) := by
  refine keeps_get.bind fun s => ?_
  split
  · exact (quiet_readText p).bind fun _ => keeps_lift _ _
  · exact keeps_pure _

theorem writes_now : Keeps (Writes ps) now :=
  fun _ => writes_of_files rfl

theorem recordRun_now (p : Path) (key output : String) :
    recordRun p key output none = now >>= fun m => recordRun p key output (some m) := rfl

theorem writes_recordRun (p : Path) (key output : String) (moment : Option Moment) :
    Keeps (Writes [p, BenchmarkStore.draft p]) (recordRun p key output moment) := by
  have store : p ∈ [p, BenchmarkStore.draft p] := by simp
  have draft : BenchmarkStore.draft p ∈ [p, BenchmarkStore.draft p] := by simp
  have at' : ∀ m, Keeps (Writes [p, BenchmarkStore.draft p]) (recordRun p key output (some m)) :=
    fun m => (keeps_pure m).bind fun _ => (quiet_readStore p).writes.bind fun _ =>
      (keeps_lift _ _).bind fun _ => (writes_ensureDirectories store).bind fun _ =>
        (writes_modify draft _).bind fun _ => (writes_rename draft store).bind fun _ =>
          (quiet_record _ _).writes.bind fun _ => keeps_pure _
  cases moment with
  | none => exact writes_now.bind at'
  | some m => exact at' m

/-- Recording a run starts nothing. -/
theorem progress_recordRun (p : Path) (key output : String) (moment : Option Moment) :
    Keeps (Progress []) (recordRun p key output moment) := by
  have at' : ∀ m, Keeps (Progress []) (recordRun p key output (some m)) := by
    intro m
    have changed : ∀ change, Keeps (Progress []) (changeFiles change) :=
      fun change => (idle_changeFiles change).mono Idle.toProgress
    refine (keeps_pure m).bind fun _ => ((quiet_readStore p).mono Ran.toProgress).bind fun _ => ?_
    exact (keeps_lift _ _).bind fun _ => (changed _).bind fun _ => (changed _).bind fun _ =>
      (changed _).bind fun _ => ((quiet_record _ _).mono Ran.toProgress).bind fun _ => keeps_pure _
  have clock : Keeps (Progress []) now :=
    fun _ => ⟨(List.append_nil _).symm, rfl, by simp, rfl, rfl, rfl, rfl⟩
  cases moment with
  | none => exact clock.bind at'
  | some m => exact at' m

theorem CarriesOut.writes {manner : Manner} {c : Command} {a : Act Outcome}
    (h : CarriesOut manner c a) : Keeps (Writes ps) a := by
  intro s
  rcases h s with ⟨f, s', runs, ran, -⟩ | ⟨st, b, s', -, ran, runs⟩
  · rw [runs]
    exact ran.writes
  · rw [runs]
    exact ran.writes

theorem writes_execute (c : Command) (colour : Bool) : Keeps (Writes ps) (execute c colour) :=
  (carriesOut_execute c colour).writes

theorem writes_executeAttached (c : Command) : Keeps (Writes ps) (executeAttached c) :=
  (carriesOut_executeAttached c).writes

theorem writes_showReports (c : Command) : Keeps (Writes ps) (showReports c) := by
  intro s
  cases missing : s.missingTools.contains "go" with
  | true =>
      rw [showReports, run_bind, findTool_run, if_pos missing]
      exact Lasting.refl s
  | false =>
      obtain ⟨made, result, s', runs, ran, -⟩ := showReports_cases c s missing
      rw [runs]
      exact ran.writes

/-- A new script is an empty file where nothing was. -/
theorem newScript_cases (tries : Nat) (s : Session) :
    (∃ f s', (newScript tries).run s = (.error f, s') ∧ Ran [] s s') ∨
      ∃ script s', (newScript tries).run s = (.ok script, s') ∧ Idle s s' ∧
        s.files.Open (Path.ofString script) ∧
        s.files.occupant? (s.files.place (Path.ofString script)) = none ∧
        FileSystem.Update (s.files.place (Path.ofString script))
          (some (.file [])) s.files s'.files := by
  induction tries generalizing s with
  | zero => exact .inl ⟨_, s, rfl, .refl s⟩
  | succ tries ih =>
      obtain ⟨n, counted, ran⟩ : ∃ n, nextTemporary.run s = (.ok n, { s with temporaries := n }) ∧
          Ran [] s { s with temporaries := n } :=
        ⟨_, rfl, ran_of_same rfl rfl rfl rfl rfl rfl rfl rfl⟩
      rw [newScript, run_bind_ok (run_get s), run_bind_ok counted, run_bind_ok (run_get _)]
      split
      next taken =>
        rcases ih { s with temporaries := n } with
          ⟨f, s', runs, ran'⟩ | ⟨script, s', runs, idle, later⟩
        · exact .inl ⟨f, s', runs, ran.trans ran'⟩
        · exact .inr ⟨script, s', runs, Lasting.trans ran.idle idle, later⟩
      next free =>
        generalize hscript : s.scriptStem ++ toString n = script at free ⊢
        rw [run_bind, changeFiles_run]
        cases done :
            FileSystem.write { s with temporaries := n }.files (Path.ofString script) [] with
        | error fault => exact .inl ⟨.file fault, _, rfl, ran⟩
        | ok fs =>
            obtain ⟨is_open, -⟩ := FileSystem.modify_eq_ok_iff.mp done
            obtain ⟨old, held, update⟩ := FileSystem.modify_update done
            have nothing : s.files.occupant? (s.files.place (Path.ofString script)) = none := by
              cases there : s.files.occupant? (s.files.place (Path.ofString script)) with
              | none => rfl
              | some o => exact absurd (FileSystem.exists'_iff.mpr ⟨is_open, o, there⟩) free
            refine .inr
              ⟨script, { s with temporaries := n, files := fs }, rfl, ?_, is_open, nothing, ?_⟩
            · exact ⟨⟨by simp, by simp, by simp, rfl, rfl, rfl, rfl⟩, rfl⟩
            · exact update

end Act

end TestRoster
