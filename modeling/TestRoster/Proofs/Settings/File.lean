import TestRoster.Proofs.Run.Writes
import TestRoster.Settings.File

/-!
Reading the settings.

Their file is read if it is there, and made with nothing in it if it is not. Either way every
directory stays, and nothing is started.
-/
namespace TestRoster

open FileSystem

variable {s s' : Session} {q : Path}

structure KeepsDirectories (s s' : Session) : Prop where
  current : s'.files.current = s.files.current
  each : ∀ place, s.files.occupant? place = some .directory →
    s'.files.occupant? place = some .directory

instance : Act.Lasting KeepsDirectories where
  refl := fun _ => ⟨rfl, fun _ => id⟩
  trans := fun h h' =>
    ⟨h'.current.trans h.current, fun place there => h'.each place (h.each place there)⟩

theorem KeepsDirectories.isDirectory (h : KeepsDirectories s s')
    (there : s.files.isDirectory q = true) :
    s'.files.isDirectory q = true := by
  obtain ⟨is_open, directory⟩ := isDirectory_iff.mp there
  refine isDirectory_iff.mpr ⟨fun way member => ?_, ?_⟩
  · rw [ways_congr h.current] at member
    exact h.each way (is_open way member)
  · rw [place_congr h.current]
    exact h.each _ directory

theorem Ran.keepsDirectories (h : Ran [] s s') : KeepsDirectories s s' := by
  constructor
  · rw [h.files]
  · rw [h.files]
    exact fun _ => id

namespace Act

theorem keepsDirectories_changeFiles {change : FileSystem → Except FileFault FileSystem}
    (h : ∀ fs fs', change fs = .ok fs' → fs'.current = fs.current ∧ ∀ place,
      fs.occupant? place = some .directory → fs'.occupant? place = some .directory) :
    Keeps KeepsDirectories (changeFiles change) := by
  intro s
  rw [changeFiles_run]
  cases done : change s.files with
  | ok fs => exact ⟨(h _ _ done).1, (h _ _ done).2⟩
  | error fault => exact Lasting.refl s

theorem keepsDirectories_ensureDirectories (p : Path) :
    Keeps KeepsDirectories (changeFiles fun fs => fs.ensureDirectories p) :=
  keepsDirectories_changeFiles fun _ _ done =>
    have grows := (ensureDirectories_grows done).2
    ⟨grows.current, fun _ there => grows.directory there⟩

theorem keepsDirectories_modify (p : Path) (change : List UInt8 → List UInt8) :
    Keeps KeepsDirectories (changeFiles fun fs => fs.modify p change) :=
  keepsDirectories_changeFiles fun _ _ done => by
    obtain ⟨old, held, update⟩ := modify_update done
    refine ⟨update.current, fun place there => ?_⟩
    rw [update.elsewhere place fun same => ?_]
    · exact there
    · rw [same, held] at there
      cases old <;> cases there

theorem loadSettings_some (c : Path) :
    loadSettings (some c) = (do
      record .debug ("Loading config from " ++ c.toString)
      let s ← get
      if s.files.exists' c then
        let (settings, log) := Settings.ofText s.homes s.library.settings (← readText c)
        recordAll log
        return settings
      else
        changeFiles fun fs => fs.ensureDirectories c.parent
        changeFiles fun fs => fs.append c []
        return Settings.default s.homes) := rfl

theorem quiet_readSettings (c : Path) (homes : Homes)
    (read : String → List (String × Option String)) : Quiet (do
    let (settings, log) := Settings.ofText homes read (← readText c)
    recordAll log
    return settings) :=
  (quiet_readText c).bind fun _ => (quiet_recordAll _).bind fun _ => keeps_pure _

/-- Reading the settings reads their file, or makes it. -/
theorem keeps_loadSettings {R : Session → Session → Prop} [Lasting R] (c : Path)
    (quiet : ∀ {s s'}, Ran [] s s' → R s s')
    (made : Keeps R (changeFiles fun fs => fs.ensureDirectories c.parent))
    (appended : Keeps R (changeFiles fun fs => fs.append c [])) :
    Keeps R (loadSettings (some c)) := by
  rw [loadSettings_some]
  exact ((quiet_record _ _).mono quiet).bind fun _ => keeps_get.bind fun s =>
    keeps_ite ((quiet_readSettings c s.homes s.library.settings).mono quiet)
      (made.bind fun _ => appended.bind fun _ => keeps_pure _)

theorem loadSettings_files (c : Path) (there : s.files.exists' c = true) :
    ((loadSettings (some c)).run s).2.files = s.files := by
  have ran := quiet_record .debug ("Loading config from " ++ c.toString) s
  have recorded : (record .debug ("Loading config from " ++ c.toString)).run s =
      (.ok (), ((record .debug ("Loading config from " ++ c.toString)).run s).2) := rfl
  rw [loadSettings_some, run_bind_ok recorded, run_bind_ok (run_get _),
    if_pos (by rw [ran.files]; exact there)]
  exact (quiet_readSettings c _ _ _).files.trans ran.files

/-- What reading the settings does: their file is made if it is missing, and nothing else. -/
structure Reads (c : Path) (s s' : Session) : Prop where
  idle : Idle s s'
  writes : Writes [c] s s'
  directories : KeepsDirectories s s'
  files : s.files.exists' c = true → s'.files = s.files

theorem reads_loadSettings (c : Path) : Keeps (Reads c) (loadSettings (some c)) := fun s => {
  idle := keeps_loadSettings c Ran.idle (idle_changeFiles _) (idle_changeFiles _) s
  writes := keeps_loadSettings c Ran.writes (writes_ensureDirectories List.mem_cons_self)
    (writes_modify List.mem_cons_self _) s
  directories := keeps_loadSettings c Ran.keepsDirectories (keepsDirectories_ensureDirectories _)
    (keepsDirectories_modify c _) s
  files := loadSettings_files c }

theorem Reads.after {c : Path} {t : Session} (h : Reads c s t) (ran : Ran [] s' s) :
    Reads c s' t where
  idle := Lasting.trans ran.idle h.idle
  writes := ran.writes.trans h.writes
  directories := Lasting.trans ran.keepsDirectories h.directories
  files := fun there => (h.files (by rw [ran.files]; exact there)).trans ran.files

theorem defaultSettingsFile_run (s : Session) :
    defaultSettingsFile.run s =
      (.ok ((Path.ofString s.homes.programDirectory).child "config"), s) := by
  rw [defaultSettingsFile, run_bind_ok (run_get s), run_pure]

theorem loadSettings_none :
    loadSettings none = defaultSettingsFile >>= fun c => loadSettings (some c) := rfl

theorem loadSettings_given (given : Option Path) (s : Session) :
    (loadSettings given).run s = (loadSettings (some
      (given.getD ((Path.ofString s.homes.programDirectory).child "config")))).run s := by
  cases given with
  | none => rw [loadSettings_none, run_bind_ok (defaultSettingsFile_run s), Option.getD_none]
  | some c => rw [Option.getD_some]

end Act

end TestRoster
