import TestRoster.Proofs.Files.Place

/-!
What changing the files changes.

Every operation is told by the occupants before and after it. Writing a file changes its place and
no other, and works where the way is open and no directory stands. Making directories turns places
where nothing stands into directories, on the way to the last of them only, and works where no file
is on that way.
-/
namespace TestRoster

namespace FileSystem

variable {fs fs' fs'' : FileSystem} {p : Path} {here found place : List String} {name : String}
  {names : List String} {bytes : List UInt8}

/-- One file system holds what another one does, but at one place. -/
structure Update (place : List String) (o : Option Occupant) (fs fs' : FileSystem) : Prop where
  current : fs'.current = fs.current
  here : fs'.occupant? place = o
  elsewhere : ∀ other, other ≠ place → fs'.occupant? other = fs.occupant? other

/-- One file system holds what another one does, with new directories at some places. -/
structure Grows (places : List (List String)) (fs fs' : FileSystem) : Prop where
  current : fs'.current = fs.current
  each : ∀ place, fs'.occupant? place = fs.occupant? place ∨
    fs.occupant? place = none ∧ fs'.occupant? place = some .directory ∧ place ∈ places

theorem Grows.refl (places : List (List String)) (fs : FileSystem) : Grows places fs fs :=
  ⟨rfl, fun _ => .inl rfl⟩

theorem Grows.trans {places : List (List String)} (h : Grows places fs fs')
    (h' : Grows places fs' fs'') : Grows places fs fs'' where
  current := h'.current.trans h.current
  each := fun place => by
    rcases h'.each place with same | ⟨nothing, made, member⟩
    · rw [same]
      exact h.each place
    · rcases h.each place with same | ⟨-, made', -⟩
      · exact .inr ⟨same ▸ nothing, made, member⟩
      · rw [nothing] at made'
        cases made'

theorem Grows.mono {places more : List (List String)} (h : Grows places fs fs')
    (sub : places ⊆ more) : Grows more fs fs' where
  current := h.current
  each := fun place => (h.each place).imp_right fun ⟨nothing, made, member⟩ =>
    ⟨nothing, made, sub member⟩

theorem Grows.directory {places : List (List String)} (h : Grows places fs fs')
    (there : fs.occupant? place = some .directory) : fs'.occupant? place = some .directory := by
  rcases h.each place with same | ⟨-, made, -⟩
  · rw [same, there]
  · exact made

theorem Grows.file_iff {places : List (List String)} (h : Grows places fs fs') :
    fs'.occupant? place = some (.file bytes) ↔ fs.occupant? place = some (.file bytes) := by
  rcases h.each place with same | ⟨nothing, made, -⟩
  · rw [same]
  · simp [nothing, made]

theorem Update.grows {places : List (List String)} (h : Update place (some .directory) fs fs')
    (nothing : fs.occupant? place = none) (member : place ∈ places) : Grows places fs fs' where
  current := h.current
  each := fun other => by
    by_cases same : other = place
    · subst same
      exact .inr ⟨nothing, h.here, member⟩
    · exact .inl (h.elsewhere other same)

theorem place_congr (current : fs'.current = fs.current) (p : Path) : fs'.place p = fs.place p := by
  rw [FileSystem.place, FileSystem.place, start, start, current]

theorem ways_congr (current : fs'.current = fs.current) (p : Path) : fs'.ways p = fs.ways p := by
  rw [ways, ways, start, start, current]

theorem resolve_congr (current : fs'.current = fs.current) (p : Path) :
    fs'.resolve p = fs.resolve p := by
  rw [resolve, resolve, FileSystem.here, FileSystem.here, current]

theorem place_child (fs : FileSystem) (p : Path) (name : String) :
    fs.place (p.child name) = step (fs.place p) name := by
  rw [FileSystem.place, Path.child, List.foldl_append]
  rfl

theorem ways_child (fs : FileSystem) (p : Path) (name : String) :
    fs.ways (p.child name) = fs.ways p ++ [fs.place p] := by
  rw [ways, Path.child, waysFrom_append]
  rfl

theorem child_parent (named : p.names ≠ []) : ∃ name, p = p.parent.child name :=
  ⟨p.names.getLast named, by simp [Path.child, Path.parent, List.dropLast_concat_getLast]⟩

theorem Update.trans {o o' : Option Occupant} (h : Update place o fs fs')
    (h' : Update place o' fs' fs'') : Update place o' fs fs'' where
  current := h'.current.trans h.current
  here := h'.here
  elsewhere := fun other apart => (h'.elsewhere other apart).trans (h.elsewhere other apart)

theorem directory_dropLast (there : fs.occupant? here = some .directory) :
    fs.occupant? here.dropLast = some .directory := by
  by_cases empty : here = []
  · subst empty
    exact there
  · have last : here.dropLast ++ [here.getLast empty] = here := List.dropLast_concat_getLast empty
    exact Entity.directory_above (List.cons_ne_nil _ []) (last.symm ▸ there)

/-- What a name leads to from a directory is a directory if the name leads upwards. -/
theorem step_of_directory (there : fs.occupant? here = some .directory) (name : String) :
    fs.occupant? (step here name) = some .directory ∨ step here name = here ++ [name] := by
  by_cases up : name = ".."
  · rw [step, if_pos up]
    exact .inl (directory_dropLast there)
  · exact .inr (if_neg up)

theorem find_of_nothing (there : fs.occupant? here = some .directory)
    (nothing : fs.occupant? (step here name) = none) :
    fs.find (step here name) = .error .notFound := by
  rcases step_of_directory there name with directory | next
  · rw [nothing] at directory
    cases directory
  · rw [next] at nothing ⊢
    exact Entity.notFound_of_above there nothing

theorem occupant?_eq_none_iff : fs.occupant? here = none ↔ ∃ cause, fs.find here = .error cause :=
  Entity.occupant?_eq_none_iff

theorem occupant?_eq_file_iff :
    fs.occupant? here = some (.file bytes) ↔ fs.find here = .ok (.file bytes) :=
  Entity.occupant?_eq_file_iff

theorem occupant?_eq_directory_iff :
    fs.occupant? here = some .directory ↔ ∃ entries, fs.find here = .ok (.directory entries) :=
  Entity.occupant?_eq_directory_iff

/-- What is put into a directory, where no directory stands, changes this place only. -/
theorem update_put {new : Entity} (above : fs.occupant? here = some .directory)
    (free : fs.occupant? (here ++ [name]) ≠ some .directory)
    (closed : ∀ rest, rest ≠ [] → new.occupant? rest = none) :
    Update (here ++ [name]) (some new.occupant) fs
      { fs with root := Entity.put new (here ++ [name]) fs.root } where
  current := rfl
  here := by
    rw [occupant?, Entity.occupant?_put above, if_pos (List.prefix_refl _)]
    simp
  elsewhere := fun other apart => by
    rw [occupant?, Entity.occupant?_put above]
    split
    next below =>
      obtain ⟨rest, rfl⟩ := below
      have some' : rest ≠ [] := by
        rintro rfl
        exact apart (List.append_nil _)
      rw [show (here ++ [name] ++ rest).drop (here.length + 1) = rest by simp, closed rest some']
      exact (Entity.nothing_below some' free).symm
    next => rfl

/-- Putting something where nothing stands but in a directory. -/
theorem update_put_new {new : Entity} (isNew : fs.find here = .error .notFound)
    (above : fs.occupant? here.dropLast = some .directory)
    (closed : ∀ rest, rest ≠ [] → new.occupant? rest = none) :
    Update here (some new.occupant) fs { fs with root := Entity.put new here fs.root } := by
  have some' : here ≠ [] := by
    rintro rfl
    cases isNew
  have last : here.dropLast ++ [here.getLast some'] = here := List.dropLast_concat_getLast some'
  have free : fs.occupant? here ≠ some .directory := by
    rw [occupant?_eq_none_iff.mpr ⟨_, isNew⟩]
    exact fun none => nomatch none
  rw [← last] at free ⊢
  exact update_put above free closed

theorem file_closed (rest : List String) (some' : rest ≠ []) :
    (Entity.file bytes).occupant? rest = none := by
  obtain ⟨name, rest, rfl⟩ := List.exists_cons_of_ne_nil some'
  exact Entity.occupant?_file_cons

theorem empty_closed (rest : List String) (some' : rest ≠ []) :
    (Entity.directory []).occupant? rest = none := by
  obtain ⟨name, rest, rfl⟩ := List.exists_cons_of_ne_nil some'
  simp

theorem directory_of_place (is_open : fs.Open p) (named : p.names ≠ []) :
    ∃ here name, fs.occupant? here = some .directory ∧ fs.place p = step here name := by
  obtain ⟨name, child⟩ := child_parent named
  have ways := ways_child fs p.parent name
  have place := place_child fs p.parent name
  rw [← child] at ways place
  exact ⟨_, name, is_open _ (by simp [ways]), place⟩

def withFile (fs : FileSystem) (place : List String) (bytes : List UInt8) : FileSystem :=
  { fs with root := Entity.put (.file bytes) place fs.root }

/-- Writing works where the way is open to a file, or to nothing in a directory. -/
theorem modify_eq_ok_iff {change : List UInt8 → List UInt8} :
    fs.modify p change = .ok fs' ↔
      fs.Open p ∧ ∃ old : Option (List UInt8), fs.occupant? (fs.place p) = old.map .file ∧
        (old = none → fs.find (fs.place p) = .error .notFound ∧
          fs.occupant? (fs.place p).dropLast = some .directory) ∧
        fs' = fs.withFile (fs.place p) (change (old.getD [])) := by
  constructor
  · intro done
    cases located : fs.locate p with
    | error cause => simp [modify, located] at done
    | ok found =>
        obtain ⟨is_open, rfl⟩ := locate_eq_ok_iff.mp located
        refine ⟨is_open, ?_⟩
        simp only [modify, located] at done
        cases at' : fs.find (fs.place p) with
        | ok e =>
            cases e with
            | file bytes =>
                simp only [at', Except.ok.injEq] at done
                exact ⟨some bytes, occupant?_eq_file_iff.mpr at', nofun, done.symm⟩
            | directory entries => simp [at'] at done
        | error cause =>
            simp only [at'] at done
            cases cause with
            | notFound =>
                cases above : fs.find (fs.place p).dropLast with
                | error cause => simp [above] at done
                | ok e =>
                    cases e with
                    | file bytes => simp [above] at done
                    | directory entries =>
                        simp only [above, Except.ok.injEq] at done
                        exact ⟨none, occupant?_eq_none_iff.mpr ⟨_, at'⟩,
                          fun _ => ⟨rfl, occupant?_eq_directory_iff.mpr ⟨_, above⟩⟩, done.symm⟩
            | exists' => cases done
            | notDirectory => cases done
            | isDirectory => cases done
  · rintro ⟨is_open, old, held, fresh, rfl⟩
    rw [modify, locate_of_open is_open]
    cases old with
    | some bytes =>
        simp only [occupant?_eq_file_iff.mp held]
        rfl
    | none =>
        obtain ⟨missing, above⟩ := fresh rfl
        obtain ⟨entries, above⟩ := occupant?_eq_directory_iff.mp above
        simp only [missing, above]
        rfl

theorem update_withFile {old : Option (List UInt8)} (held : fs.occupant? here = old.map .file)
    (fresh : old = none → fs.find here = .error .notFound ∧
      fs.occupant? here.dropLast = some .directory) (bytes : List UInt8) :
    Update here (some (.file bytes)) fs (fs.withFile here bytes) := by
  cases old with
  | none =>
      obtain ⟨missing, above⟩ := fresh rfl
      exact update_put_new missing above file_closed
  | some was =>
      have free : fs.occupant? here ≠ some .directory := by simp [held]
      by_cases top : here = []
      · subst top
        have root : fs.root = .file was := by simpa
          [find, Entity.find] using occupant?_eq_file_iff.mp held
        refine ⟨rfl, by simp [withFile, occupant?, Entity.put], fun other apart => ?_⟩
        rw [occupant?, occupant?, root, withFile, Entity.put, file_closed other apart,
          file_closed other apart]
      · have last : here.dropLast ++ [here.getLast top] = here := List.dropLast_concat_getLast top
        rw [← last] at held free ⊢
        exact update_put (Entity.directory_above (List.cons_ne_nil _ []) held) free file_closed

theorem modify_update {change : List UInt8 → List UInt8} (done : fs.modify p change = .ok fs') :
    ∃ old : Option (List UInt8), fs.occupant? (fs.place p) = old.map .file ∧
      Update (fs.place p) (some (.file (change (old.getD [])))) fs fs' := by
  obtain ⟨-, old, held, fresh, rfl⟩ := modify_eq_ok_iff.mp done
  exact ⟨old, held, update_withFile held fresh _⟩

/-- Writing works where the way is open and no directory stands. -/
theorem modify_of_open (change : List UInt8 → List UInt8) (is_open : fs.Open p)
    (named : p.names ≠ []) (free : fs.occupant? (fs.place p) ≠ some .directory) :
    ∃ fs', fs.modify p change = .ok fs' := by
  obtain ⟨above, name, directory, place⟩ := directory_of_place is_open named
  cases held : fs.occupant? (fs.place p) with
  | none =>
      have nothing := held
      rw [place] at nothing
      rcases step_of_directory directory name with up | next
      · rw [up] at nothing
        cases nothing
      · refine ⟨_, modify_eq_ok_iff.mpr ⟨is_open, none, held, fun _ => ⟨?_, ?_⟩, rfl⟩⟩
        · rw [place]
          exact find_of_nothing directory nothing
        · rw [place, next, List.dropLast_concat]
          exact directory
  | some o =>
      cases o with
      | directory => exact absurd held free
      | file bytes => exact ⟨_, modify_eq_ok_iff.mpr ⟨is_open, some bytes, held, nofun, rfl⟩⟩

theorem makeDirectory_update (done : fs.makeDirectory p = .ok fs') :
    fs.Open p ∧ fs.occupant? (fs.place p) = none ∧
      Update (fs.place p) (some .directory) fs fs' := by
  cases located : fs.locate p with
  | error cause => simp [makeDirectory, located] at done
  | ok found =>
      obtain ⟨is_open, rfl⟩ := locate_eq_ok_iff.mp located
      simp only [makeDirectory, located] at done
      cases at' : fs.find (fs.place p) with
      | ok e => simp [at'] at done
      | error cause =>
          simp only [at'] at done
          cases cause with
          | notFound =>
              cases above : fs.find (fs.place p).dropLast with
              | error cause => simp [above] at done
              | ok e =>
                  cases e with
                  | file bytes => simp [above] at done
                  | directory entries =>
                      simp only [above, Except.ok.injEq] at done
                      refine ⟨is_open, occupant?_eq_none_iff.mpr ⟨_, at'⟩, done ▸ ?_⟩
                      exact update_put_new at'
                        (occupant?_eq_directory_iff.mpr ⟨_, above⟩) empty_closed
          | exists' => cases done
          | notDirectory => cases done
          | isDirectory => cases done

/-- The places that making directories for a path may turn into directories. -/
def along (fs : FileSystem) (p : Path) : List (List String) :=
  fs.place p :: fs.ways p

theorem along_congr (current : fs'.current = fs.current) (p : Path) : fs'.along p = fs.along p := by
  rw [along, along, place_congr current, ways_congr current]

theorem along_child (fs : FileSystem) (p : Path) (name : String) :
    fs.along p ⊆ fs.ways (p.child name) := by
  rw [along, ways_child]
  intro place member
  rcases List.mem_cons.mp member with rfl | earlier
  · simp
  · simp [earlier]

theorem along_parent_subset (p : Path) : fs.along p.parent ⊆ fs.along p := by
  by_cases named : p.names = []
  · have same : p.parent = p := by
      cases p
      simp_all [Path.parent]
    rw [same]
    exact List.Subset.refl _
  · obtain ⟨name, child⟩ := child_parent named
    have sub := along_child fs p.parent name
    rw [← child] at sub
    exact fun place member => List.mem_cons_of_mem _ (sub member)

theorem Update.isDirectory (is_open : fs.Open p)
    (made : Update (fs.place p) (some .directory) fs fs') :
    fs'.isDirectory p = true := by
  refine isDirectory_iff.mpr ⟨?_, ?_⟩
  · intro way member
    rw [ways_congr made.current] at member
    by_cases same : way = fs.place p
    · rw [same]
      exact made.here
    · rw [made.elsewhere way same]
      exact is_open way member
  · rw [place_congr made.current]
    exact made.here

theorem ensureDirectory_grows (done : fs.ensureDirectory p = .ok fs') :
    fs'.isDirectory p = true ∧ Grows (fs.along p) fs fs' := by
  rw [ensureDirectory] at done
  cases made : fs.makeDirectory p with
  | ok new =>
      simp only [made, Except.ok.injEq] at done
      subst done
      obtain ⟨is_open, nothing, update⟩ := makeDirectory_update made
      exact ⟨update.isDirectory is_open, update.grows nothing List.mem_cons_self⟩
  | error fault =>
      simp only [made] at done
      split at done
      next stands =>
        cases done
        exact ⟨stands.2, .refl _ _⟩
      next => cases done

theorem ensureAbove_grows (fuel : Nat) (done : ensureAbove fuel fs p = .ok fs') :
    fs'.isDirectory p = true ∧ Grows (fs.along p) fs fs' := by
  induction fuel generalizing p fs' with
  | zero => exact ensureDirectory_grows done
  | succ fuel ih =>
      rw [ensureAbove] at done
      cases made : fs.ensureDirectory p with
      | ok new =>
          simp only [made, Except.ok.injEq] at done
          exact done ▸ ensureDirectory_grows made
      | error fault =>
          simp only [made] at done
          split at done
          next =>
            cases above : ensureAbove fuel fs p.parent with
            | error fault => simp [above, bind, Except.bind] at done
            | ok middle =>
                have done : middle.ensureDirectory p = .ok fs' := by
                  simpa [above, bind, Except.bind] using done
                obtain ⟨-, grows⟩ := ih above
                obtain ⟨stands, grows'⟩ := ensureDirectory_grows done
                rw [along_congr grows.current] at grows'
                exact ⟨stands, (grows.mono (along_parent_subset p)).trans grows'⟩
          next => cases done

theorem ensureDirectories_grows (done : fs.ensureDirectories p = .ok fs') :
    fs'.isDirectory p = true ∧ Grows (fs.along p) fs fs' :=
  ensureAbove_grows _ done

/-- A path starts from a directory and meets no file on its way. -/
structure Clear (fs : FileSystem) (p : Path) : Prop where
  start : fs.occupant? (fs.start p) = some .directory
  along : ∀ place ∈ fs.along p, ∀ bytes, fs.occupant? place ≠ some (.file bytes)

theorem Clear.parent (h : fs.Clear p) : fs.Clear p.parent :=
  ⟨h.start, fun place member => h.along place (along_parent_subset p member)⟩

theorem Grows.clear {places : List (List String)} (grows : Grows places fs fs') (h : fs.Clear p) :
    fs'.Clear p where
  start := by
    have same :
      fs'.start p = fs.start p := by rw [FileSystem.start, FileSystem.start, grows.current]
    rw [same]
    exact grows.directory h.start
  along := fun place member bytes file => by
    rw [along_congr grows.current] at member
    exact h.along place member bytes (grows.file_iff.mp file)

theorem walk_of_clear (start : fs.occupant? here = some .directory ∨
    fs.find here = .error .notFound)
    (clear : ∀ way ∈ waysFrom here names, ∀ bytes, fs.occupant? way ≠ some (.file bytes)) :
    fs.walk here names = .ok (names.foldl step here) ∨ fs.walk here names = .error .notFound := by
  induction names generalizing here with
  | nil => exact .inl rfl
  | cons name rest ih =>
      obtain ⟨-, later⟩ := List.forall_mem_cons.mp clear
      rcases start with directory | missing
      · obtain ⟨entries, at'⟩ := occupant?_eq_directory_iff.mp directory
        simp only [walk, at', List.foldl_cons]
        cases rest with
        | nil => exact .inl rfl
        | cons second rest =>
            refine ih ?_ later
            cases next : fs.occupant? (step here name) with
            | none => exact .inr (find_of_nothing directory next)
            | some o =>
                cases o with
                | directory => exact .inl next
                | file bytes => exact absurd next (later _ List.mem_cons_self bytes)
      · exact .inr (by simp only [walk, missing])

theorem ensureDirectory_of_open (is_open : fs.Open p) (clear : fs.Clear p) :
    ∃ fs', fs.ensureDirectory p = .ok fs' := by
  have located := locate_of_open is_open
  cases held : fs.occupant? (fs.place p) with
  | none =>
      have named : p.names ≠ [] := by
        intro empty
        have start : fs.place p = fs.start p := by rw [place, empty]; rfl
        rw [start, clear.start] at held
        cases held
      obtain ⟨above, name, directory, next⟩ := directory_of_place is_open named
      have missing : fs.find (fs.place p) = .error .notFound := by
        rw [next] at held ⊢
        exact find_of_nothing directory held
      have below : fs.occupant? (fs.place p).dropLast = some .directory := by
        rcases step_of_directory directory name with up | down
        · rw [next, up] at held
          cases held
        · rw [next, down, List.dropLast_concat]
          exact directory
      obtain ⟨entries, below⟩ := occupant?_eq_directory_iff.mp below
      refine ⟨{ fs with root := Entity.put (.directory []) (fs.place p) fs.root }, ?_⟩
      simp only [ensureDirectory, makeDirectory, located, missing, below]
  | some o =>
      cases o with
      | file bytes => exact absurd held (clear.along _ List.mem_cons_self bytes)
      | directory =>
          have stands : fs.isDirectory p = true := isDirectory_iff.mpr ⟨is_open, held⟩
          obtain ⟨entries, found⟩ := occupant?_eq_directory_iff.mp held
          refine ⟨fs, ?_⟩
          simp only [ensureDirectory, makeDirectory, located, found]
          simp [stands]

/-- Where no file is on the way, what is missing for a directory is the directory above it. -/
theorem ensureDirectory_of_clear (clear : fs.Clear p) :
    (∃ fs', fs.ensureDirectory p = .ok fs') ∨
      ∃ written, fs.ensureDirectory p = .error ⟨.notFound, written, none⟩ ∧ p.names ≠ [] := by
  have free : ∀ way ∈ waysFrom (fs.start p) p.names, ∀ bytes,
    fs.occupant? way ≠ some (.file bytes) :=
    fun way member => clear.along way (List.mem_cons_of_mem _ member)
  have way := walk_of_clear (.inl clear.start) free
  rcases way with reached | missing
  · have located : fs.locate p = .ok (fs.place p) := reached
    exact .inl (ensureDirectory_of_open (locate_eq_ok_iff.mp located).1 clear)
  · have located : fs.locate p = .error .notFound := missing
    refine .inr ⟨p.toString, ?_, ?_⟩
    · simp [ensureDirectory, makeDirectory, located]
    · intro empty
      rw [empty] at missing
      cases missing

theorem open_child (stands : fs.isDirectory p = true) (name : String) : fs.Open (p.child name) := by
  obtain ⟨is_open, directory⟩ := isDirectory_iff.mp stands
  intro way member
  rw [ways_child] at member
  rcases List.mem_append.mp member with earlier | last
  · exact is_open way earlier
  · rw [List.mem_singleton.mp last]
    exact directory

/-- Directories can be made wherever no file is on the way. -/
theorem ensureAbove_of_clear (fuel : Nat) (enough : p.names.length ≤ fuel) (clear : fs.Clear p) :
    ∃ fs', ensureAbove fuel fs p = .ok fs' := by
  induction fuel generalizing p with
  | zero =>
      have empty : p.names = [] := List.length_eq_zero_iff.mp (Nat.le_zero.mp enough)
      exact (ensureDirectory_of_clear clear).resolve_right fun ⟨_, _, named⟩ => named empty
  | succ fuel ih =>
      rcases ensureDirectory_of_clear clear with ⟨fs', done⟩ | ⟨written, missing, named⟩
      · exact ⟨fs', by rw [ensureAbove, done]⟩
      · obtain ⟨name, child⟩ := child_parent named
        have shorter : p.parent.names.length ≤ fuel := by
          have drop : p.parent.names.length = p.names.length - 1 := List.length_dropLast
          omega
        have other : p.parent ≠ p := by
          intro same
          have length := congrArg (fun q => q.names.length) child
          rw [same] at length
          simp [Path.child] at length
        obtain ⟨middle, above⟩ := ih shorter clear.parent
        obtain ⟨stands, grows⟩ := ensureAbove_grows fuel above
        obtain ⟨fs', done⟩ := ensureDirectory_of_open (child ▸ open_child stands name)
          (grows.clear clear)
        exact ⟨fs', by simp [ensureAbove, missing, other, above, done, bind, Except.bind]⟩

theorem ensureDirectories_of_clear (clear : fs.Clear p) : ∃ fs', fs.ensureDirectories p = .ok fs' :=
  ensureAbove_of_clear _ (Nat.le_refl _) clear

/-- Directories are only made where no file is on the way. -/
theorem clear_of_isDirectory {places : List (List String)} (grows : Grows places fs fs')
    (stands : fs'.isDirectory p = true) (start : fs.occupant? (fs.start p) = some .directory) :
    fs.Clear p where
  start := start
  along := fun place member bytes file => by
    obtain ⟨is_open, directory⟩ := isDirectory_iff.mp stands
    have file' := grows.file_iff.mpr file
    rw [← along_congr grows.current] at member
    rcases List.mem_cons.mp member with rfl | way
    · rw [directory] at file'
      cases file'
    · rw [is_open place way] at file'
      cases file'

end FileSystem

end TestRoster
