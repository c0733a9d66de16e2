import TestRoster.Proofs.Files.Change

/-!
Files that others leave alone.

A change of the files spares a path if it does not touch the file there and makes at most
directories on its way. Then the file can be written afterwards if it could be before. Writing a
file spares every path that lies apart from it: neither stands on the way to the other.
-/
namespace TestRoster

namespace FileSystem

variable {fs fs' fs'' : FileSystem} {p q : Path} {here place : List String} {bytes : List UInt8}

theorem start_congr (current : fs'.current = fs.current) (p : Path) : fs'.start p = fs.start p := by
  rw [start, start, current]

theorem place_of_start (same : fs'.start p = fs.start p) : fs'.place p = fs.place p := by
  rw [FileSystem.place, FileSystem.place, same]

theorem ways_of_start (same : fs'.start p = fs.start p) : fs'.ways p = fs.ways p := by
  rw [ways, ways, same]

/-- The file at a path is as it was, and so is its way, but for new directories. -/
structure Spares (p : Path) (fs fs' : FileSystem) : Prop where
  start : fs'.start p = fs.start p
  here : fs'.occupant? (fs.place p) = fs.occupant? (fs.place p)
  way : ∀ way ∈ fs.ways p, fs'.occupant? way = fs.occupant? way ∨
    fs.occupant? way = none ∧ fs'.occupant? way = some .directory

instance (p : Path) (fs fs' : FileSystem) : Decidable (Spares p fs fs') :=
  decidable_of_iff (fs'.start p = fs.start p ∧
    fs'.occupant? (fs.place p) = fs.occupant? (fs.place p) ∧
    ∀ way ∈ fs.ways p, fs'.occupant? way = fs.occupant? way ∨
      fs.occupant? way = none ∧ fs'.occupant? way = some .directory)
    ⟨fun ⟨start, here, way⟩ => ⟨start, here, way⟩, fun h => ⟨h.start, h.here, h.way⟩⟩

theorem Spares.refl (p : Path) (fs : FileSystem) : Spares p fs fs :=
  ⟨rfl, rfl, fun _ _ => .inl rfl⟩

theorem Spares.trans (h : Spares p fs fs') (h' : Spares p fs' fs'') : Spares p fs fs'' where
  start := h'.start.trans h.start
  here := by
    rw [← h.here, ← place_of_start h.start]
    exact h'.here
  way := fun way member => by
    rcases h'.way way (ways_of_start h.start ▸ member) with same | ⟨nothing, made⟩
    · rw [same]
      exact h.way way member
    · rcases h.way way member with same | ⟨-, made'⟩
      · exact .inr ⟨same ▸ nothing, made⟩
      · rw [nothing] at made'
        cases made'

/-- Neither path stands on the way to the other, and they lead to two places. -/
structure Apart (fs : FileSystem) (p q : Path) : Prop where
  left : fs.place p ∉ fs.along q
  right : fs.place q ∉ fs.along p

instance (fs : FileSystem) (p q : Path) : Decidable (fs.Apart p q) :=
  decidable_of_iff (fs.place p ∉ fs.along q ∧ fs.place q ∉ fs.along p)
    ⟨fun ⟨left, right⟩ => ⟨left, right⟩, fun h => ⟨h.left, h.right⟩⟩

theorem Apart.symm (h : fs.Apart p q) : fs.Apart q p :=
  ⟨h.right, h.left⟩

theorem Apart.congr (current : fs'.current = fs.current) (h : fs.Apart p q) : fs'.Apart p q := by
  constructor
  · rw [place_congr current, along_congr current]
    exact h.left
  · rw [place_congr current, along_congr current]
    exact h.right

/-- A file can be written at a path, once the directories on its way are made. -/
structure Writable (fs : FileSystem) (p : Path) : Prop where
  start : fs.occupant? (fs.start p) = some .directory
  written : ∃ made written, fs.ensureDirectories p.parent = .ok made ∧
    made.append p [] = .ok written

theorem written_iff (fs : FileSystem) (p : Path) :
    ((fs.ensureDirectories p.parent).bind (·.append p [])).toOption.isSome = true ↔
      ∃ made written, fs.ensureDirectories p.parent = .ok made ∧
        made.append p [] = .ok written := by
  cases fs.ensureDirectories p.parent with
  | error fault => simp [Except.bind, Except.toOption]
  | ok made => cases done : made.append p [] <;> simp [Except.bind, Except.toOption, done]

instance (fs : FileSystem) (p : Path) : Decidable (fs.Writable p) :=
  decidable_of_iff (fs.occupant? (fs.start p) = some .directory ∧
    ((fs.ensureDirectories p.parent).bind (·.append p [])).toOption.isSome = true)
    ⟨fun ⟨start, written⟩ => ⟨start, (written_iff fs p).mp written⟩,
      fun h => ⟨h.start, (written_iff fs p).mpr h.written⟩⟩

/-- What makes a path writable. -/
structure Ready (fs : FileSystem) (p : Path) : Prop where
  clear : fs.Clear p.parent
  named : ∃ name, p = p.parent.child name ∧ name ≠ ".."
  free : fs.occupant? (fs.place p) ≠ some .directory
  beside : fs.place p ∉ fs.along p.parent

theorem Ready.place_eq (h : fs.Ready p) : ∃ name, fs.place p = fs.place p.parent ++ [name] := by
  obtain ⟨name, child, down⟩ := h.named
  have next := place_child fs p.parent name
  rw [← child, step, if_neg down] at next
  exact ⟨name, next⟩

theorem Ready.names_ne_nil (h : fs.Ready p) : p.names ≠ [] := by
  obtain ⟨name, child, -⟩ := h.named
  rw [child]
  simp [Path.child]

theorem Ready.along_parent (h : fs.Ready p) : fs.along p.parent ⊆ fs.ways p := by
  obtain ⟨name, child, -⟩ := h.named
  have sub := along_child fs p.parent name
  rw [← child] at sub
  exact sub

theorem start_mem_ways (named : p.names ≠ []) : fs.start p ∈ fs.ways p := by
  obtain ⟨name, rest, split⟩ := List.exists_cons_of_ne_nil named
  rw [ways, split, waysFrom]
  exact List.mem_cons_self

/-- A file with all directories above it is written as it can be. -/
theorem Ready.append (h : fs.Ready p) (change : List UInt8 → List UInt8) :
    ∃ made written, fs.ensureDirectories p.parent = .ok made ∧ made.modify p change = .ok written ∧
      Grows (fs.along p.parent) fs made ∧
      ∃ old : Option (List UInt8), fs.occupant? (fs.place p) = old.map .file ∧
        Update (fs.place p) (some (.file (change (old.getD [])))) made written := by
  obtain ⟨made, done⟩ := ensureDirectories_of_clear h.clear
  obtain ⟨stands, grows⟩ := ensureDirectories_grows done
  have same : made.occupant? (fs.place p) = fs.occupant? (fs.place p) := by
    rcases grows.each (fs.place p) with same | ⟨-, -, member⟩
    · exact same
    · exact absurd member h.beside
  obtain ⟨name, child, -⟩ := h.named
  have is_open : made.Open p := child ▸ open_child stands name
  obtain ⟨written, done'⟩ := modify_of_open change is_open h.names_ne_nil
    (by rw [place_congr grows.current, same]; exact h.free)
  obtain ⟨old, held, update⟩ := modify_update done'
  rw [place_congr grows.current] at held update
  exact ⟨made, written, done, done', grows, old, same ▸ held, update⟩

theorem ready_of_writable (h : fs.Writable p) : fs.Ready p := by
  obtain ⟨made, written, done, done'⟩ := h.written
  obtain ⟨stands, grows⟩ := ensureDirectories_grows done
  obtain ⟨is_open, directory⟩ := isDirectory_iff.mp stands
  obtain ⟨old, held, -⟩ := modify_update done'
  have free : made.occupant? (made.place p) ≠ some .directory := by
    rw [held]
    cases old <;> simp
  have named : p.names ≠ [] := by
    intro empty
    have top : p.parent = p := by
      cases p
      simp_all [Path.parent]
    rw [top] at directory
    exact free directory
  obtain ⟨name, child⟩ := child_parent named
  have down : name ≠ ".." := by
    rintro rfl
    rw [child, place_child, step, if_pos rfl] at free
    exact free (directory_dropLast directory)
  have directories : ∀ place ∈ made.along p.parent, made.occupant? place = some .directory := by
    intro place member
    rcases List.mem_cons.mp member with rfl | way
    · exact directory
    · exact is_open place way
  refine ⟨clear_of_isDirectory grows stands h.start, ⟨name, child, down⟩, ?_, ?_⟩
  · intro directory
    rw [place_congr grows.current] at free
    exact free (grows.directory directory)
  · intro member
    rw [← along_congr grows.current, ← place_congr grows.current] at member
    exact free (directories _ member)

/-- Where the way is open and no directory stands a file can be written. -/
theorem ready_of_open (named : p.names ≠ []) (is_open : fs.Open p)
    (free : fs.occupant? (fs.place p) ≠ some .directory) : fs.Ready p := by
  obtain ⟨name, child⟩ := child_parent named
  have place := place_child fs p.parent name
  have above := along_child fs p.parent name
  rw [← child] at place above
  have directories : ∀ way ∈ fs.along p.parent, fs.occupant? way = some .directory :=
    fun way member => is_open way (above member)
  refine ⟨⟨is_open _ (start_mem_ways named), fun way member bytes file => ?_⟩, ⟨name, child, ?_⟩,
    free, fun member => free (directories _ member)⟩
  · rw [directories way member] at file
    cases file
  · rintro rfl
    rw [step, if_pos rfl] at place
    rw [place] at free
    exact free (directory_dropLast (directories _ List.mem_cons_self))

/-- A file that can be read can be written. -/
theorem ready_of_file {bytes : List UInt8} (named : p.names ≠ []) (is_open : fs.Open p)
    (file : fs.occupant? (fs.place p) = some (.file bytes)) : fs.Ready p :=
  ready_of_open named is_open fun directory => by
    rw [file] at directory
    cases directory

/-- An open way stays open as long as it is spared. -/
theorem Open.congr_spares (is_open : fs.Open p) (h : Spares p fs fs') : fs'.Open p := by
  intro way member
  rw [ways_of_start h.start] at member
  rcases h.way way member with same | ⟨-, made⟩
  · rw [same]
    exact is_open way member
  · exact made

/-- What can be written stays so as long as it is spared. -/
theorem Spares.ready (h : Spares p fs fs') (ready : fs.Ready p) : fs'.Ready p where
  clear := by
    have start : fs.occupant? (fs.start p) = some .directory := ready.clear.start
    have along : fs'.along p.parent = fs.along p.parent := by
      have start : fs'.start p.parent = fs.start p.parent := h.start
      rw [FileSystem.along, FileSystem.along, place_of_start start, ways_of_start start]
    refine ⟨?_, fun place member bytes file => ?_⟩
    · have same : fs'.start p.parent = fs.start p := h.start
      rw [same]
      rcases h.way _ (start_mem_ways ready.names_ne_nil) with same | ⟨-, made⟩
      · rw [same]
        exact start
      · exact made
    · rw [along] at member
      rcases h.way place (ready.along_parent member) with same | ⟨-, made⟩
      · rw [same] at file
        exact ready.clear.along place member bytes file
      · rw [made] at file
        cases file
  named := ready.named
  free := by
    rw [place_of_start h.start, h.here]
    exact ready.free
  beside := by
    have start : fs'.start p.parent = fs.start p.parent := h.start
    rw [place_of_start h.start, FileSystem.along, place_of_start start, ways_of_start start]
    exact ready.beside

theorem Grows.spares {places : List (List String)} (grows : Grows places fs fs')
    (apart : fs.place q ∉ places) : Spares q fs fs' where
  start := start_congr grows.current q
  here := (grows.each _).resolve_right fun ⟨_, _, member⟩ => apart member
  way := fun way _ => (grows.each way).imp_right fun ⟨nothing, made, _⟩ => ⟨nothing, made⟩

theorem Update.spares {o : Option Occupant} (update : Update place o fs fs')
    (apart : place ∉ fs.along q) : Spares q fs fs' where
  start := start_congr update.current q
  here := update.elsewhere _ fun same => apart (same ▸ List.mem_cons_self)
  way := fun way member => .inl <| update.elsewhere way fun same =>
    apart (same ▸ List.mem_cons_of_mem _ member)

theorem spares_of_same (current : fs'.current = fs.current)
    (same : ∀ place, fs'.occupant? place = fs.occupant? place) (q : Path) : Spares q fs fs' :=
  ⟨start_congr current q, same _, fun way _ => .inl (same way)⟩

theorem spares_ensureDirectories (done : fs.ensureDirectories p.parent = .ok fs')
    (apart : fs.Apart p q) : Spares q fs fs' :=
  (ensureDirectories_grows done).2.spares fun member => apart.right (along_parent_subset p member)

theorem spares_modify {change : List UInt8 → List UInt8} (done : fs.modify p change = .ok fs')
    (apart : fs.Apart p q) : Spares q fs fs' := by
  obtain ⟨old, -, update⟩ := modify_update done
  exact update.spares apart.left

/-- The file system without what stands at a place. -/
def without (fs : FileSystem) (place : List String) : FileSystem :=
  { fs with root := fs.root.erase place }

/-- Taking out a file changes its place only. -/
theorem update_without (some' : here ≠ []) (file : fs.occupant? here = some (.file bytes)) :
    Update here none fs (fs.without here) where
  current := rfl
  here := by
    rw [occupant?, without, Entity.occupant?_erase some', if_pos (List.prefix_refl _)]
  elsewhere := fun other apart => by
    rw [occupant?, without, Entity.occupant?_erase some']
    split
    next below =>
      obtain ⟨rest, rfl⟩ := below
      have some'' : rest ≠ [] := by
        rintro rfl
        exact apart (List.append_nil _)
      refine (Entity.nothing_below some'' ?_).symm
      have file : fs.root.occupant? here = some (.file bytes) := file
      simp [file]
    next => rfl

theorem rename_eq_ok_iff {source target : Path} :
    fs.rename source target = .ok fs' ↔ fs.move source target = .ok fs' := by
  rw [rename]
  cases fs.move source target with
  | error fault => exact ⟨nofun, nofun⟩
  | ok moved => exact Iff.rfl

theorem rename_eq_ok {source target : Path} (done : fs.rename source target = .ok fs') :
    ∃ bytes moved, fs.Open source ∧ fs.occupant? (fs.place source) = some (.file bytes) ∧
      fs.write target bytes = .ok moved ∧
      (fs' = moved ∨ moved.Open source ∧ fs' = moved.without (moved.place source)) := by
  rw [rename_eq_ok_iff] at done
  cases held : fs.read source source.toString with
  | error fault => simp [move, held, bind, Except.bind] at done
  | ok bytes =>
      cases put : fs.write target bytes with
      | error fault => simp [move, held, put, bind, Except.bind] at done
      | ok moved =>
          obtain ⟨is_open, file⟩ := read_eq_ok_iff.mp held
          refine ⟨bytes, moved, is_open, file, put, ?_⟩
          cases located : moved.locate source with
          | error cause =>
              simp only [move, held, put, located, bind, Except.bind, pure, Except.pure,
                Except.ok.injEq] at done
              exact .inl done.symm
          | ok names =>
              simp only [move, held, put, located, bind, Except.bind, pure, Except.pure,
                Except.ok.injEq] at done
              obtain ⟨is_open', rfl⟩ := locate_eq_ok_iff.mp located
              exact .inr ⟨is_open', done.symm⟩

theorem rename_current {source target : Path} (done : fs.rename source target = .ok fs') :
    fs'.current = fs.current := by
  obtain ⟨bytes, moved, -, -, put, last⟩ := rename_eq_ok done
  obtain ⟨old, -, update⟩ := modify_update put
  rcases last with rfl | ⟨-, rfl⟩
  · exact update.current
  · exact update.current

theorem without_top (file : fs.occupant? [] = some (.file bytes)) : fs.without [] = fs := by
  have root : fs.root = .file bytes := by simpa
    [find, Entity.find] using occupant?_eq_file_iff.mp file
  rw [without, root, Entity.erase, ← root]

theorem spares_rename {source target : Path} (done : fs.rename source target = .ok fs')
    (apart : fs.Apart source q) (apart' : fs.Apart target q) : Spares q fs fs' := by
  obtain ⟨bytes, moved, -, file, put, last⟩ := rename_eq_ok done
  have spared := spares_modify put apart'
  rcases last with rfl | ⟨-, rfl⟩
  · exact spared
  · obtain ⟨old, -, update⟩ := modify_update put
    have still : ∃ bytes, moved.occupant? (moved.place source) = some (.file bytes) := by
      rw [place_congr update.current]
      by_cases same : fs.place source = fs.place target
      · rw [same]
        exact ⟨_, update.here⟩
      · rw [update.elsewhere _ same]
        exact ⟨_, file⟩
    obtain ⟨bytes, still⟩ := still
    by_cases top : moved.place source = []
    · rw [top] at still ⊢
      rwa [without_top still]
    · exact spared.trans ((update_without top still).spares (apart.congr update.current).left)

theorem Open.congr_update {o : Option Occupant} (is_open : fs.Open q)
    (update : Update place o fs fs')
    (free : fs.occupant? place ≠ some .directory) : fs'.Open q := by
  intro way member
  rw [ways_congr update.current] at member
  have directory := is_open way member
  rw [update.elsewhere way fun same => free (same ▸ directory)]
  exact directory

/-- A file is moved onto another one, or to where nothing stands. -/
theorem rename_of_open {source target : Path} (is_open : fs.Open source)
    (file : fs.occupant? (fs.place source) = some (.file bytes)) (low : fs.place source ≠ [])
    (is_open' : fs.Open target) (named : target.names ≠ [])
    (free : fs.occupant? (fs.place target) ≠ some .directory)
    (other : fs.place source ≠ fs.place target) :
    ∃ moved fs', fs.rename source target = .ok fs' ∧
      Update (fs.place target) (some (.file bytes)) fs moved ∧
      Update (fs.place source) none moved fs' := by
  obtain ⟨moved, put⟩ := modify_of_open (fun _ => bytes) is_open' named free
  obtain ⟨old, -, update⟩ := modify_update put
  have read : fs.read source source.toString = .ok bytes := read_eq_ok_iff.mpr ⟨is_open, file⟩
  have located := locate_of_open (is_open.congr_update update free)
  have put : fs.write target bytes = .ok moved := put
  refine ⟨moved, moved.without (fs.place source), ?_, update, ?_⟩
  · rw [place_congr update.current] at located
    rw [rename_eq_ok_iff, move]
    simp only [read, put, located, bind, Except.bind]
    rfl
  · exact update_without low (by rw [update.elsewhere _ other]; exact file)

theorem Update.ready {o : Option Occupant} (update : Update (fs.place p) o fs fs')
    (free : o ≠ some .directory) (ready : fs.Ready p) : fs'.Ready p where
  clear := by
    refine ⟨?_, fun place member bytes file => ?_⟩
    · have same : fs'.start p.parent = fs.start p := start_congr update.current p
      have start : fs.occupant? (fs.start p) = some .directory := ready.clear.start
      rw [same, update.elsewhere _ fun top => ready.free (top ▸ start)]
      exact start
    · rw [along_congr update.current] at member
      rw [update.elsewhere _ fun same => ready.beside (same ▸ member)] at file
      exact ready.clear.along place member bytes file
  named := ready.named
  free := by
    rw [place_congr update.current, update.here]
    exact free
  beside := by
    rw [place_congr update.current, along_congr update.current]
    exact ready.beside

/-- Writing below directories that are made first: the file is changed, and can be changed again. -/
theorem Ready.written (ready : fs.Ready p) (change : List UInt8 → List UInt8) :
    ∃ made written, fs.ensureDirectories p.parent = .ok made ∧ made.modify p change = .ok written ∧
      written.Ready p ∧ written.Open p ∧ written.current = fs.current ∧
      ∃ old : Option (List UInt8), fs.occupant? (fs.place p) = old.map .file ∧
        written.occupant? (written.place p) = some (.file (change (old.getD []))) := by
  obtain ⟨made, written, done, done', grows, old, held, update⟩ := ready.append change
  have spared := grows.spares ready.beside
  have place : made.place p = fs.place p := place_congr grows.current p
  rw [← place] at update
  have free : made.occupant? (made.place p) ≠ some .directory := by
    rw [place, grows.each (fs.place p) |>.resolve_right fun ⟨_, _, member⟩ => ready.beside member]
    exact ready.free
  refine ⟨made, written, done, done', update.ready (by simp) (spared.ready ready), ?_,
    update.current.trans grows.current, old, held, ?_⟩
  · exact (modify_eq_ok_iff.mp done').1.congr_update update free
  · rw [place_congr update.current]
    exact update.here

/-- Two files that can be written in one directory under two names lie apart. -/
theorem apart_of_siblings (ready : fs.Ready p) (ready' : fs.Ready q)
    (siblings : q.parent = p.parent)
    (other : fs.place p ≠ fs.place q) : fs.Apart p q := by
  have ways : ∀ {p : Path}, fs.Ready p → ∀ way ∈ fs.ways p, way ∈ fs.along p.parent := by
    intro p ready way member
    obtain ⟨name, child, -⟩ := ready.named
    rw [child, ways_child] at member
    rcases List.mem_append.mp member with earlier | last
    · exact List.mem_cons_of_mem _ earlier
    · exact List.mem_singleton.mp last ▸ List.mem_cons_self
  constructor
  · intro member
    rcases List.mem_cons.mp member with same | way
    · exact other same
    · exact ready.beside (siblings ▸ ways ready' _ way)
  · intro member
    rcases List.mem_cons.mp member with same | way
    · exact other same.symm
    · exact ready'.beside (siblings ▸ ways ready _ way)

end FileSystem

end TestRoster
