import TestRoster.Proofs.Discovery.Walk

/-!
How little the files of a directory matter to each other.

What is found in a file depends on the bytes at its place only, whoever works on it and whenever it
is finished.
-/
namespace TestRoster

theorem getElem?_set_all {α : Type} (value : Nat → Option α) (order : List Nat)
    (places : List (Option α)) (i : Nat) (inside : i < places.length) :
    (order.foldl (fun places i => places.set i (value i)) places)[i]? =
      if i ∈ order then some (value i) else places[i]? := by
  induction order generalizing places with
  | nil => simp
  | cons first order ih =>
      rw [List.foldl_cons, ih _ (by simpa using inside)]
      by_cases later : i ∈ order
      · simp [later]
      · by_cases same : i = first
        · subst same
          simp [inside]
        · simp [later, same, Ne.symm same]

theorem length_set_all {α : Type} (value : Nat → Option α) (order : List Nat)
    (places : List (Option α)) :
    (order.foldl (fun places i => places.set i (value i)) places).length = places.length := by
  induction order generalizing places with
  | nil => rfl
  | cons first order ih => rw [List.foldl_cons, ih, List.length_set]

/-- Threads leave the same whatever order they finish in. -/
theorem inThreads_eq_map {α β : Type} (work : α → β) (items : List α)
    (finish : FinishingOrder items.length) : inThreads finish.1 work items = items.map work := by
  have filled : finish.1.foldl (fun places i => places.set i (items[i]?.map work))
      (List.replicate items.length none) = items.map (some ∘ work) := by
    refine List.ext_getElem? fun i => ?_
    by_cases inside : i < items.length
    · have turn : i ∈ finish.1 := finish.2.mem_iff.mpr (List.mem_range.mpr inside)
      rw [getElem?_set_all (fun i => items[i]?.map work) _ _ _ (by simpa using inside), if_pos turn]
      simp [inside]
    · rw [List.getElem?_eq_none, List.getElem?_eq_none]
      · simpa using inside
      · rw [length_set_all fun i => items[i]?.map work]
        simpa using inside
  rw [inThreads, filled, List.filterMap_map]
  exact congrFun List.filterMap_eq_map items

/-- The file systems hold the same everywhere, but for the bytes of the file at one place. -/
structure FileSystem.DiffersAt (place : List String) (fs fs' : FileSystem) : Prop where
  current : fs.current = fs'.current
  file : ∃ bytes, fs.occupant? place = some (.file bytes)
  file' : ∃ bytes, fs'.occupant? place = some (.file bytes)
  elsewhere : ∀ other, other ≠ place → fs.occupant? other = fs'.occupant? other

namespace FileSystem

variable {fs fs' : FileSystem} {place names : List String} {p : Path} {cfg : Config} {mode : Mode}

theorem DiffersAt.directory_iff (h : DiffersAt place fs fs') (other : List String) :
    fs.occupant? other = some .directory ↔ fs'.occupant? other = some .directory := by
  by_cases same : other = place
  · obtain ⟨bytes, file⟩ := h.file
    obtain ⟨bytes', file'⟩ := h.file'
    simp [same, file, file']
  · rw [h.elsewhere other same]

theorem DiffersAt.file_iff (h : DiffersAt place fs fs') (other : List String) :
    (∃ bytes, fs.occupant? other = some (.file bytes)) ↔
      ∃ bytes, fs'.occupant? other = some (.file bytes) := by
  by_cases same : other = place
  · exact iff_of_true (same ▸ h.file) (same ▸ h.file')
  · rw [h.elsewhere other same]

theorem DiffersAt.place_eq (h : DiffersAt place fs fs') (p : Path) : fs.place p = fs'.place p := by
  rw [FileSystem.place, FileSystem.place, start, start, h.current]

theorem DiffersAt.open_iff (h : DiffersAt place fs fs') (p : Path) : fs.Open p ↔ fs'.Open p := by
  have ways : fs.ways p = fs'.ways p := by
    rw [FileSystem.ways, FileSystem.ways, start, start, h.current]
  rw [Open, Open, ways]
  exact forall₂_congr fun way _ => h.directory_iff way

/-- The reports are those of the files one by one, in the order of the walk, whoever works on them
and in whatever order they are finished. -/
theorem discover_eq_map {parse : Go.Source → Go.Cst} {root : String}
    (there : fs.exists' (Path.ofString root) = true)
    (workers : Option Int) (finish : (n : Nat) → FinishingOrder n) :
    (fs.discover parse cfg mode root workers finish).1 =
      (fs.testFiles cfg (Path.ofString root)).map fun p =>
        ⟨p.toString, (FileOutcome.ofFile parse fs cfg mode p.toString).result⟩ := by
  rw [discover, if_pos there]
  simp only [inThreads_eq_map]
  split <;> exact List.map_map

variable {directory directory' : Entity} {entries : List (String × Entity)} {root : Path}

theorem occupant?_descend (there : fs.entity? root = some directory) :
    fs.occupant? (fs.place root ++ names) = directory.occupant? names := by
  obtain ⟨-, found⟩ := entity?_eq_some_iff.mp there
  have found : fs.root.find (fs.place root) = .ok directory := found
  rw [occupant?, Entity.occupant?, Entity.find_append, found]
  rfl

theorem testFiles_of_directory (cfg : Config)
    (there : fs.entity? root = some (.directory entries)) :
    fs.testFiles cfg root = (Entity.walk cfg entries).map root.descend := by
  rw [testFiles, there]
  exact Entity.testFiles_eq_walk root

/-- What the walk lists is read under the path that it gives to it. -/
theorem read_listed (tree : fs.root.WellFormed) (there : fs.entity? root = some directory)
    (written : root.Written) (isDirectory : directory.isDirectory)
      (listed : cfg.Lists directory names)
    {bytes : List UInt8} :
    fs.readAt (root.descend names).toString = .ok bytes ↔
      fs.occupant? (fs.place root ++ names) = some (.file bytes) := by
  obtain ⟨is_open, found⟩ := entity?_eq_some_iff.mp there
  obtain ⟨held, file⟩ := listed.file
  obtain ⟨-, well⟩ := tree.find found
  obtain ⟨each, -⟩ := well.find file
  have some' : names ≠ [] := by
    rintro rfl
    cases file
    cases isDirectory
  have stands : fs.occupant? (fs.place root ++ names) = some (.file held) :=
    (occupant?_descend there).trans (Entity.occupant?_eq_file_iff.mpr file)
  rw [readAt_toString (written.descend each) (by simp [Path.descend, some']), read_eq_ok_iff,
    place_descend each]
  exact and_iff_right (open_descend is_open each stands)

/-- The same files are listed in a file system that differs in the bytes of one file. -/
theorem DiffersAt.lists_iff (h : DiffersAt place fs fs') (there : fs.entity? root = some directory)
    (there' : fs'.entity? root = some directory') :
    cfg.Lists directory names ↔ cfg.Lists directory' names := by
  have files : (∃ bytes, directory.find names = .ok (.file bytes)) ↔
      ∃ bytes, directory'.find names = .ok (.file bytes) := by
    simp only [← Entity.occupant?_eq_file_iff, ← occupant?_descend there,
      ← occupant?_descend there', ← h.place_eq]
    exact h.file_iff _
  exact ⟨fun ⟨file, named, entered⟩ => ⟨files.mp file, named, entered⟩,
    fun ⟨file, named, entered⟩ => ⟨files.mpr file, named, entered⟩⟩

theorem DiffersAt.entity_directory (h : DiffersAt place fs fs')
    (there : fs.entity? root = some (.directory entries)) :
    ∃ entries', fs'.entity? root = some (.directory entries') := by
  obtain ⟨is_open, found⟩ := entity?_eq_some_iff.mp there
  have directory : fs.occupant? (fs.place root) = some .directory :=
    Entity.occupant?_eq_directory_iff.mpr ⟨entries, found⟩
  rw [h.directory_iff, h.place_eq] at directory
  obtain ⟨entries', found'⟩ := Entity.occupant?_eq_directory_iff.mp directory
  exact ⟨entries', entity?_eq_some_iff.mpr ⟨(h.open_iff root).mp is_open, found'⟩⟩

end FileSystem

theorem FileOutcome.ofFile_congr {parse : Go.Source → Go.Cst} {fs fs' : FileSystem} {cfg : Config}
    {mode : Mode} {path : String} (h : fs.readAt path = fs'.readAt path) :
    FileOutcome.ofFile parse fs cfg mode path = FileOutcome.ofFile parse fs' cfg mode path := by
  rw [FileOutcome.ofFile, FileOutcome.ofFile, SourceTree.ofFile, SourceTree.ofFile, h]

/-- Discovery in a directory is exact, ordered and isolated. It finds each test file that it is to
list, and no other file, once and in the order of the walk; it reports what is found in each file by
itself, whoever works on it and whatever the parser is; and in a file system that differs in the
bytes of one file it finds the same files, and reports the same of all the others. -/
theorem directory_discovery_is_exact_ordered_and_isolated (parse : Go.Source → Go.Cst)
    (fs : FileSystem) (cfg : Config) (mode : Mode) (root : String) (tree : fs.root.WellFormed)
    (isDirectory : fs.isDirectory (Path.ofString root) = true) :
    ∃ (directory : Entity) (found : List (List String)),
      fs.entity? (Path.ofString root) = some directory ∧
      fs.testFiles cfg (Path.ofString root) = found.map (Path.ofString root).descend ∧
      (∀ names, names ∈ found ↔ cfg.Lists directory names) ∧
      found.Pairwise WalkBefore ∧
      (∀ workers finish, (fs.discover parse cfg mode root workers finish).1 =
        (fs.testFiles cfg (Path.ofString root)).map fun p =>
          ⟨p.toString, (FileOutcome.ofFile parse fs cfg mode p.toString).result⟩) ∧
      ∀ (place : List String) (fs' : FileSystem), fs'.root.WellFormed → fs.DiffersAt place fs' →
        fs'.testFiles cfg (Path.ofString root) = fs.testFiles cfg (Path.ofString root) ∧
        ∀ (i : Nat) (names : List String), found[i]? = some names →
          fs.place (Path.ofString root) ++ names ≠ place →
          ∀ workers finish workers' finish',
            (fs'.discover parse cfg mode root workers' finish').1[i]? =
              (fs.discover parse cfg mode root workers finish).1[i]? := by
  obtain ⟨is_open, stands⟩ := FileSystem.isDirectory_iff.mp isDirectory
  obtain ⟨entries, found⟩ := Entity.occupant?_eq_directory_iff.mp stands
  have there := FileSystem.entity?_eq_some_iff.mpr ⟨is_open, found⟩
  have exists' := FileSystem.exists'_iff.mpr ⟨is_open, _, stands⟩
  have well := (tree.find found).2
  have files := FileSystem.testFiles_of_directory cfg there
  have written := Path.written_ofString root
  refine ⟨.directory entries, Entity.walk cfg entries, there, files, Entity.mem_walk well,
    Entity.walk_pairwise well, FileSystem.discover_eq_map exists', ?_⟩
  intro place fs' tree' differs
  obtain ⟨entries', there'⟩ := differs.entity_directory there
  obtain ⟨is_open', found'⟩ := FileSystem.entity?_eq_some_iff.mp there'
  have well' := (tree'.find found').2
  have exists'' := FileSystem.exists'_iff.mpr
    ⟨is_open', _, Entity.occupant?_eq_directory_iff.mpr ⟨entries', found'⟩⟩
  have walked : Entity.walk cfg entries' = Entity.walk cfg entries :=
    walk_unique (Entity.walk_pairwise well') (Entity.walk_pairwise well) fun names => by
      rw [Entity.mem_walk well', Entity.mem_walk well]
      exact (differs.lists_iff there there').symm
  have files' : fs'.testFiles cfg (Path.ofString root) = fs.testFiles cfg (Path.ofString root) := by
    rw [FileSystem.testFiles_of_directory cfg there', files, walked]
  refine ⟨files', fun i names at' other workers finish workers' finish' => ?_⟩
  have listed := (Entity.mem_walk well names).mp (List.mem_of_getElem? at')
  have read : fs'.readAt ((Path.ofString root).descend names).toString =
      fs.readAt ((Path.ofString root).descend names).toString := by
    obtain ⟨bytes, file⟩ := listed.file
    have here := Entity.occupant?_eq_file_iff.mpr file
    rw [← FileSystem.occupant?_descend there] at here
    rw [(FileSystem.read_listed tree there written rfl listed).mpr here]
    rw [differs.elsewhere _ other, differs.place_eq] at here
    exact (FileSystem.read_listed tree' there' written rfl
      ((differs.lists_iff there there').mp listed)).mpr here
  rw [FileSystem.discover_eq_map exists'', FileSystem.discover_eq_map exists', files', files]
  simp only [List.getElem?_map, at', Option.map_some]
  rw [FileOutcome.ofFile_congr read]

/-- A directory with a test file, a subdirectory with another one, and one that is left out. -/
def smallTree : FileSystem where
  root := .directory
    [("m", .directory
      [("sub", .directory [("a_test.go", .file [])]),
        ("vendor", .directory [("c_test.go", .file [])]),
        ("b_test.go", .file [0xff]), ("b.go", .file [])])]
  current := []

theorem smallTree_discovery_is_exact_ordered_and_isolated :
    smallTree.root.WellFormed ∧ smallTree.isDirectory (Path.ofString "m") = true ∧
      ∃ found : List (List String),
        smallTree.testFiles {} (Path.ofString "m") = found.map (Path.ofString "m").descend ∧
        found.Pairwise WalkBefore ∧ ["b_test.go"] ∈ found ∧ ["sub", "a_test.go"] ∈ found ∧
        ["vendor", "c_test.go"] ∉ found := by
  have tree : smallTree.root.WellFormed := by
    refine .directory (by decide) (by simp [IsName]) ?_
    simp only [List.forall_mem_singleton]
    refine .directory (by decide) (by simp [IsName]) ?_
    simp only [List.forall_mem_cons]
    refine ⟨?_, ?_, .file _, .file _, by simp⟩
    all_goals
      refine .directory (by decide) (by simp [IsName]) ?_
      simp only [List.forall_mem_singleton]
      exact .file _
  have isDirectory : smallTree.isDirectory (Path.ofString "m") = true := by decide +kernel
  obtain ⟨directory, found, there, files, exact', order, -⟩ :=
    directory_discovery_is_exact_ordered_and_isolated
      (fun _ => .node { kind := "source_file" } []) smallTree {} .tests "m" tree isDirectory
  cases there
  refine ⟨tree, isDirectory, found, files, order, (exact' _).mpr ?_, (exact' _).mpr ?_, ?_⟩
  · exact ⟨⟨_, rfl⟩, ⟨_, rfl, by decide⟩, by simp⟩
  · exact ⟨⟨_, rfl⟩, ⟨_, rfl, by decide⟩, by decide⟩
  · intro listed
    exact absurd ((exact' _).mp listed).entered (by decide)

end TestRoster
