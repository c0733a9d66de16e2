import TestRoster.Proofs.Benchmark.Recording

/-!
Filing a store.

A store is filed by way of the draft beside it: the directories above it are made, the draft is
written, and then it is moved into place. Each of these steps can fail, and then the file of the
store still holds what it held. What stands in the way of filing a store stays there, and nothing
stands in the way any more once it was filed.
-/
namespace TestRoster

open FileSystem BenchmarkStore

variable {p : Path} {fs fs' above beside moved : FileSystem} {fault : FileFault}
  {bytes : List UInt8}

theorem place_draft (fs : FileSystem) (p : Path) :
    fs.place (draft p) = fs.place p.parent ++ [p.name ++ ".tmp"] := by
  have other : p.name ++ ".tmp" ≠ ".." := by
    intro same
    have last := congrArg (fun t : String => t.toList.getLast?) same
    simp at last
  rw [draft, place_child, step, if_neg other]

theorem place_draft_ne (fs : FileSystem) (p : Path) : fs.place (draft p) ≠ fs.place p := by
  intro same
  rw [place_draft] at same
  by_cases named : p.names = []
  · have top : p.parent = p := by
      cases p
      simp_all [Path.parent]
    rw [top] at same
    simpa using congrArg List.length same
  · obtain ⟨name, child⟩ := child_parent named
    have last : p.name = name := by
      rw [child]
      simp [Path.name, Path.child]
    have place := place_child fs p.parent name
    rw [← child] at place
    rw [place, step, last] at same
    split at same
    · have lengths := congrArg List.length same
      simp at lengths
      omega
    · have lengths :=
        congrArg String.length (List.append_cancel_left same |> List.head_eq_of_cons_eq)
      simp at lengths

/-- A document was filed at a path: its draft was written below directories that were made first,
and moved into place. -/
structure Filed (p : Path) (bytes : List UInt8) (fs above beside moved : FileSystem) : Prop where
  made : fs.ensureDirectories p.parent = .ok above
  drafted : above.write (draft p) bytes = .ok beside
  renamed : beside.rename (draft p) p = .ok moved

/-- A document could not be filed at a path; the files that the steps before the failure left. -/
inductive Unfiled (p : Path) (bytes : List UInt8) (fs : FileSystem) (fault : FileFault) :
    FileSystem → Prop
  | unmade (failed : fs.ensureDirectories p.parent = .error fault) : Unfiled p bytes fs fault fs
  | undrafted (above : FileSystem) (made : fs.ensureDirectories p.parent = .ok above)
      (failed : above.write (draft p) bytes = .error fault) : Unfiled p bytes fs fault above
  | unmoved (above beside : FileSystem) (made : fs.ensureDirectories p.parent = .ok above)
      (drafted : above.write (draft p) bytes = .ok beside)
      (failed : beside.rename (draft p) p = .error fault) : Unfiled p bytes fs fault beside

theorem filed_or_unfiled (p : Path) (bytes : List UInt8) (fs : FileSystem) :
    (∃ above beside moved, Filed p bytes fs above beside moved) ∨
      ∃ fault fs', Unfiled p bytes fs fault fs' := by
  cases made : fs.ensureDirectories p.parent with
  | error fault => exact .inr ⟨fault, fs, .unmade made⟩
  | ok above =>
      cases drafted : above.write (draft p) bytes with
      | error fault => exact .inr ⟨fault, above, .undrafted above made drafted⟩
      | ok beside =>
          cases renamed : beside.rename (draft p) p with
          | error fault => exact .inr ⟨fault, beside, .unmoved above beside made drafted renamed⟩
          | ok moved => exact .inl ⟨above, beside, moved, made, drafted, renamed⟩

/-- What the steps of filing leave before the last of them: all directories, and the file in the
place of the document as it is. -/
structure Drafting (p : Path) (fs fs' : FileSystem) : Prop where
  current : fs'.current = fs.current
  here : ∀ bytes, fs'.occupant? (fs.place p) = some (.file bytes) ↔
    fs.occupant? (fs.place p) = some (.file bytes)
  directory : ∀ place, fs.occupant? place = some .directory → fs'.occupant? place = some .directory

theorem Drafting.refl (p : Path) (fs : FileSystem) : Drafting p fs fs :=
  ⟨rfl, fun _ => .rfl, fun _ directory => directory⟩

theorem drafting_made (made : fs.ensureDirectories p.parent = .ok above) : Drafting p fs above := by
  obtain ⟨-, grows⟩ := ensureDirectories_grows made
  exact ⟨grows.current, fun _ => grows.file_iff, fun _ => grows.directory⟩

theorem Drafting.write (h : Drafting p fs above)
    (drafted : above.write (draft p) bytes = .ok beside) :
    Drafting p fs beside := by
  obtain ⟨old, held, update⟩ := modify_update drafted
  have other : fs.place p ≠ above.place (draft p) := by
    rw [place_congr h.current]
    exact (place_draft_ne fs p).symm
  refine ⟨update.current.trans h.current, fun content => ?_, fun place directory => ?_⟩
  · rw [update.elsewhere _ other]
    exact h.here content
  · have before := h.directory place directory
    rw [update.elsewhere place]
    · exact before
    · rintro rfl
      rw [held] at before
      cases old <;> cases before

theorem Unfiled.drafting (h : Unfiled p bytes fs fault fs') : Drafting p fs fs' := by
  cases h with
  | unmade failed => exact .refl p fs
  | undrafted _ made failed => exact drafting_made made
  | unmoved above _ made drafted failed => exact (drafting_made made).write drafted

theorem Drafting.isOpen {q : Path} (h : Drafting p fs fs') (is_open : fs.Open q) : fs'.Open q := by
  intro way member
  rw [ways_congr h.current] at member
  exact h.directory way (is_open way member)

theorem Drafting.isDirectory {q : Path} (h : Drafting p fs fs') (stands : fs.isDirectory q = true) :
    fs'.isDirectory q = true := by
  obtain ⟨is_open, directory⟩ := isDirectory_iff.mp stands
  refine isDirectory_iff.mpr ⟨h.isOpen is_open, ?_⟩
  rw [place_congr h.current]
  exact h.directory _ directory

/-- What could be read before can be read as before. -/
theorem Drafting.read {place : String} (h : Drafting p fs fs')
    (held : fs.read p place = .ok bytes) :
    fs'.read p place = .ok bytes := by
  obtain ⟨is_open, file⟩ := read_eq_ok_iff.mp held
  refine read_eq_ok_iff.mpr ⟨h.isOpen is_open, ?_⟩
  rw [place_congr h.current]
  exact (h.here bytes).mpr file

/-- The draft stands beside a place that no directory takes. -/
theorem drafted_of_free (made : fs.ensureDirectories p.parent = .ok above)
    (drafted : above.write (draft p) bytes = .ok beside)
    (free : beside.occupant? (beside.place p) ≠ some .directory) : Act.Drafted p bytes beside := by
  obtain ⟨stands, -⟩ := ensureDirectories_grows made
  obtain ⟨-, -, update⟩ := modify_update drafted
  have stands' : beside.isDirectory p.parent = true :=
    ((Drafting.refl p above).write drafted).isDirectory stands
  have named : p.names ≠ [] := by
    intro empty
    have top : p.parent = p := by
      cases p
      simp_all [Path.parent]
    rw [top] at stands'
    exact free (isDirectory_iff.mp stands').2
  obtain ⟨name, child⟩ := child_parent named
  have openStore : beside.Open p := child ▸ open_child stands' name
  have openDraft : beside.Open (draft p) := open_child stands' _
  have file : beside.occupant? (beside.place (draft p)) = some (.file bytes) := by
    rw [place_congr update.current]
    exact update.here
  exact ⟨ready_of_open named openStore free,
    ready_of_file (by simp [draft, Path.child]) openDraft file,
    openStore, openDraft, file⟩

/-- What was filed stands in its place, and can be filed again. -/
theorem Filed.stands (h : Filed p bytes fs above beside moved) :
    moved.Ready p ∧ moved.Ready (draft p) ∧ moved.Open p ∧
      moved.occupant? (moved.place p) = some (.file bytes) := by
  obtain ⟨_, _, -, -, put, -⟩ := rename_eq_ok h.renamed
  obtain ⟨old, held, -⟩ := modify_update put
  have free : beside.occupant? (beside.place p) ≠ some .directory := by
    rw [held]
    cases old <;> simp
  obtain ⟨moved', renamed, stands⟩ := Act.drafted_moved (drafted_of_free h.made h.drafted free)
  cases h.renamed.symm.trans renamed
  exact stands

/-- No store can be filed at a path: the directories above it cannot be made, or they are there and
the draft cannot be written, or a directory stands in the place of the store. -/
def Blocked (p : Path) (fs : FileSystem) : Prop :=
  (∃ fault, fs.ensureDirectories p.parent = .error fault) ∨
    fs.isDirectory p.parent = true ∧
      ((∃ fault, fs.write (draft p) [] = .error fault) ∨
        fs.occupant? (fs.place p) = some .directory)

/-- Whether a file can be written does not depend on what is written. -/
theorem write_fails {q : Path} (failed : fs.write q bytes = .error fault) (content : List UInt8) :
    ∃ fault, fs.write q content = .error fault := by
  cases done : fs.write q content with
  | error fault => exact ⟨fault, rfl⟩
  | ok fs' =>
      obtain ⟨is_open, old, held, fresh, -⟩ := modify_eq_ok_iff.mp done
      have done' : fs.write q bytes = .ok (fs.withFile (fs.place q) bytes) :=
        modify_eq_ok_iff.mpr ⟨is_open, old, held, fresh, rfl⟩
      rw [failed] at done'
      cases done'

theorem ensureDirectories_of_isDirectory {q : Path} (stands : fs.isDirectory q = true) :
    fs.ensureDirectories q = .ok fs := by
  obtain ⟨is_open, directory⟩ := isDirectory_iff.mp stands
  obtain ⟨entries, found⟩ := occupant?_eq_directory_iff.mp directory
  have there : fs.ensureDirectory q = .ok fs := by
    simp [ensureDirectory, makeDirectory, locate_of_open is_open, found, stands]
  rw [ensureDirectories]
  cases q.names.length with
  | zero => exact there
  | succ fuel => rw [ensureAbove, there]

/-- Where filing failed it is blocked. -/
theorem Unfiled.blocked (h : Unfiled p bytes fs fault fs') : Blocked p fs' := by
  cases h with
  | unmade failed => exact .inl ⟨fault, failed⟩
  | undrafted _ made failed =>
    exact .inr ⟨(ensureDirectories_grows made).1, .inl (write_fails failed [])⟩
  | unmoved above _ made drafted failed =>
      have drafting : Drafting p above fs' := (Drafting.refl p above).write drafted
      refine .inr ⟨drafting.isDirectory (ensureDirectories_grows made).1, .inr ?_⟩
      refine Classical.byContradiction fun free => ?_
      obtain ⟨moved, renamed, -⟩ := Act.drafted_moved (drafted_of_free made drafted free)
      rw [failed] at renamed
      cases renamed

/-- Where filing is blocked it fails. -/
theorem Blocked.not_filed (h : Blocked p fs) : ¬ Filed p bytes fs above beside moved := by
  intro filed
  rcases h with ⟨fault, failed⟩ | ⟨stands, ⟨fault, failed⟩ | directory⟩
  · rw [filed.made] at failed
    cases failed
  · cases filed.made.symm.trans (ensureDirectories_of_isDirectory stands)
    obtain ⟨fault, failed⟩ := write_fails failed bytes
    rw [filed.drafted] at failed
    cases failed
  · have before : Drafting p fs beside := (drafting_made filed.made).write filed.drafted
    obtain ⟨_, _, -, -, put, -⟩ := rename_eq_ok filed.renamed
    obtain ⟨old, held, -⟩ := modify_update put
    rw [place_congr before.current, before.directory _ directory] at held
    cases old <;> cases held

/-- Filing only fails where the store or its draft cannot be written. -/
theorem Unfiled.not_ready (h : Unfiled p bytes fs fault fs') :
    ¬ (fs.Ready p ∧ fs.Ready (draft p)) := by
  rintro ⟨ready, ready'⟩
  obtain ⟨above', beside', made', drafted', stands⟩ := Act.drafted ready ready' bytes
  obtain ⟨moved, renamed, -⟩ := Act.drafted_moved stands
  cases h with
  | unmade failed => cases failed.symm.trans made'
  | undrafted above made failed =>
      cases made.symm.trans made'
      cases failed.symm.trans drafted'
  | unmoved above beside made drafted failed =>
      cases made.symm.trans made'
      cases drafted.symm.trans drafted'
      cases failed.symm.trans renamed

def Session.timed (s : Session) : Option Moment → Moment × Session
  | some m => (m, s)
  | none => (s.clock, { s with clock := s.clock.nextSecond })

theorem Session.timed_files (s : Session) (moment : Option Moment) :
    (s.timed moment).2.files = s.files := by
  cases moment <;> rfl

namespace Act

/-- How recording a run ends: the store cannot be read, has no place for the run, cannot be filed,
or is filed. -/
inductive RecordEnds (p : Path) (key output stamp : String) (s : Session) :
    Except Failure String → Session → Prop
  | unread (f : Failure) (failed : loaded p s.files = .error f) :
      RecordEnds p key output stamp s (.error f) s
  | misused (store : Datum) (fault : Misuse) (read : loaded p s.files = .ok store)
      (failed : insert store key stamp output = .error fault) :
      RecordEnds p key output stamp s (.error (.misuse fault)) s
  | unfiled (store store' : Datum) (fault : FileFault) (fs' : FileSystem)
      (read : loaded p s.files = .ok store) (inserted : insert store key stamp output = .ok store')
      (unfiled : Unfiled p (Utf8.encode (store'.toJson layout).toList) s.files fault fs') :
      RecordEnds p key output stamp s (.error (.file fault)) { s with files := fs' }
  | filed (store store' : Datum) (above beside moved : FileSystem)
      (read : loaded p s.files = .ok store) (inserted : insert store key stamp output = .ok store')
      (filed : Filed p (Utf8.encode (store'.toJson layout).toList) s.files above beside moved) :
      RecordEnds p key output stamp s (.ok stamp)
        { s with
          files := moved
          log := s.log ++ [⟨.debug, "Stored benchmark run " ++ stamp ++ " for " ++ key⟩] }

theorem recordRun_ends_at (p : Path) (key output : String) (m : Moment) (s : Session) :
    RecordEnds p key output m.stamp s ((recordRun p key output (some m)).run s).1
      ((recordRun p key output (some m)).run s).2 := by
  rw [recordRun, run_bind_ok (run_pure m s), run_bind, readStore_eq]
  cases read : loaded p s.files with
  | error f => exact .unread f read
  | ok store =>
      simp only [run_bind, run_lift]
      cases inserted : insert store key m.stamp output with
      | error fault => exact .misused store fault read inserted
      | ok store' =>
          simp only [Except.mapError, changeFiles_run]
          rcases filed_or_unfiled p (Utf8.encode (store'.toJson layout).toList) s.files with
            ⟨above, beside, moved, filed⟩ | ⟨fault, fs', unfiled⟩
          · simp only [filed.made, filed.drafted, filed.renamed]
            exact .filed store store' above beside moved read inserted filed
          · have ends := RecordEnds.unfiled store store' fault fs' read inserted unfiled
            cases unfiled with
            | unmade failed =>
                simp only [failed]
                exact ends
            | undrafted above made failed =>
                simp only [made, failed]
                exact ends
            | unmoved above beside made drafted failed =>
                simp only [made, drafted, failed]
                exact ends

theorem recordRun_ends (p : Path) (key output : String) (moment : Option Moment) (s : Session) :
    RecordEnds p key output (s.timed moment).1.stamp (s.timed moment).2
      ((recordRun p key output moment).run s).1 ((recordRun p key output moment).run s).2 := by
  cases moment with
  | some m => exact recordRun_ends_at p key output m s
  | none =>
      have told : now.run s = (.ok s.clock, (s.timed none).2) := rfl
      rw [recordRun_now, run_bind_ok told]
      exact recordRun_ends_at p key output s.clock _

end Act

end TestRoster
