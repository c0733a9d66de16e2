import TestRoster.Files.Tree
import TestRoster.Proofs.Datum.Field
import TestRoster.Proofs.Files.Path

/-!
What stands where in a file system.

A place is a list of names from the root. What a tree of files holds is told by the occupant of each
place: nothing, a directory, or a file with its bytes. A path leads to a place if there is a
directory everywhere on its way; the place itself depends on the names and the current directory
only.
-/
namespace TestRoster

/-- What a place can hold. -/
inductive Occupant where
  | directory
  | file (bytes : List UInt8)
  deriving DecidableEq, Repr

namespace Entity

/-- Every directory in an entity names each of its entries once, and so that a path can hold it. -/
inductive WellFormed : Entity → Prop
  | file (bytes : List UInt8) : WellFormed (.file bytes)
  | directory {entries : List (String × Entity)} (once : (entries.map Prod.fst).Nodup)
      (named : ∀ entry ∈ entries, IsName entry.1) (each : ∀ entry ∈ entries, WellFormed entry.2) :
      WellFormed (.directory entries)

def occupant : Entity → Occupant
  | .file bytes => .file bytes
  | .directory _ => .directory

/-- What stands at the end of some names, if anything does. -/
def occupant? (e : Entity) (names : List String) : Option Occupant :=
  (e.find names).toOption.map occupant

variable {e new : Entity} {bytes : List UInt8} {entries : List (String × Entity)}
  {name other : String} {names rest place : List String}

@[simp] theorem occupant_file : (Entity.file bytes).occupant = .file bytes := rfl

@[simp] theorem occupant_directory : (Entity.directory entries).occupant = .directory := rfl

@[simp] theorem occupant?_nil : e.occupant? [] = some e.occupant := by
  simp [occupant?, find, Except.toOption]

@[simp] theorem occupant?_file_cons : (Entity.file bytes).occupant? (name :: rest) = none := by
  simp [occupant?, find, Except.toOption]

@[simp] theorem occupant?_directory_cons :
    (Entity.directory entries).occupant? (name :: rest) =
      (entries.lookup name).bind fun e => e.occupant? rest := by
  cases h : entries.lookup name <;> simp [occupant?, find, h, Except.toOption]

theorem occupant?_eq_some_iff {o : Occupant} :
    e.occupant? names = some o ↔ ∃ found, e.find names = .ok found ∧ found.occupant = o := by
  cases h : e.find names <;> simp [occupant?, h, Except.toOption]

theorem occupant?_eq_file_iff :
    e.occupant? names = some (.file bytes) ↔ e.find names = .ok (.file bytes) := by
  rw [occupant?_eq_some_iff]
  constructor
  · rintro ⟨found, here, is⟩
    cases found with
    | file held => cases is; exact here
    | directory entries => cases is
  · exact fun here => ⟨_, here, rfl⟩

theorem occupant?_eq_directory_iff :
    e.occupant? names = some .directory ↔ ∃ entries, e.find names = .ok (.directory entries) := by
  rw [occupant?_eq_some_iff]
  constructor
  · rintro ⟨found, here, is⟩
    cases found with
    | file held => cases is
    | directory entries => exact ⟨entries, here⟩
  · exact fun ⟨entries, here⟩ => ⟨_, here, rfl⟩

theorem occupant?_eq_none_iff : e.occupant? names = none ↔
    ∃ cause, e.find names = .error cause := by
  cases h : e.find names <;> simp [occupant?, h, Except.toOption]

theorem WellFormed.ofEntries (h : (Entity.directory entries).WellFormed) :
    (entries.map Prod.fst).Nodup ∧ (∀ entry ∈ entries, IsName entry.1) ∧
      ∀ entry ∈ entries, WellFormed entry.2 := by
  cases h with
  | directory once named each => exact ⟨once, named, each⟩

theorem WellFormed.lookup (h : (Entity.directory entries).WellFormed)
    (found : entries.lookup name = some e) :
    IsName name ∧ e.WellFormed := by
  obtain ⟨once, named, each⟩ := h.ofEntries
  have member := (lookup_eq_some_iff_mem once).mp found
  exact ⟨named _ member, each _ member⟩

theorem WellFormed.find (h : e.WellFormed) {found : Entity} (there : e.find names = .ok found) :
    (∀ name ∈ names, IsName name) ∧ found.WellFormed := by
  induction names generalizing e with
  | nil => cases there; exact ⟨by simp, h⟩
  | cons name rest ih =>
      cases e with
      | file bytes => simp [Entity.find] at there
      | directory entries =>
          cases looked : entries.lookup name with
          | none => simp [Entity.find, looked] at there
          | some next =>
              simp only [Entity.find, looked] at there
              obtain ⟨named, inside⟩ := h.lookup looked
              obtain ⟨later, well⟩ := ih inside there
              exact ⟨List.forall_mem_cons.mpr ⟨named, later⟩, well⟩

theorem find_append (names rest : List String) (e : Entity) :
    e.find (names ++ rest) = (e.find names).bind fun found => found.find rest := by
  induction names generalizing e with
  | nil => simp [find, Except.bind]
  | cons name names ih =>
      cases e with
      | file bytes => simp [find, Except.bind]
      | directory entries =>
          cases h : entries.lookup name with
          | none => simp [find, h, Except.bind]
          | some next => simp [find, h, ih]

/-- Whatever stands somewhere stands in a directory. -/
theorem directory_above {o : Occupant} (below : rest ≠ [])
    (there : e.occupant? (names ++ rest) = some o) : e.occupant? names = some .directory := by
  obtain ⟨name, rest, rfl⟩ := List.exists_cons_of_ne_nil below
  obtain ⟨found, reached, -⟩ := occupant?_eq_some_iff.mp there
  rw [find_append] at reached
  cases h : e.find names with
  | error cause => rw [h] at reached; cases reached
  | ok here =>
      cases here with
      | file bytes => rw [h] at reached; cases reached
      | directory entries => exact occupant?_eq_directory_iff.mpr ⟨entries, h⟩

theorem nothing_below (below : rest ≠ []) (h : e.occupant? names ≠ some .directory) :
    e.occupant? (names ++ rest) = none := by
  cases there : e.occupant? (names ++ rest) with
  | none => rfl
  | some o => exact absurd (directory_above below there) h

theorem notFound_of_above (above : e.occupant? names = some .directory)
    (h : e.occupant? (names ++ [name]) = none) : e.find (names ++ [name]) = .error .notFound := by
  obtain ⟨entries, here⟩ := occupant?_eq_directory_iff.mp above
  obtain ⟨cause, missing⟩ := occupant?_eq_none_iff.mp h
  rw [find_append, here] at missing ⊢
  cases found : entries.lookup name with
  | none => simp [Except.bind, find, found]
  | some next => simp [Except.bind, find, found] at missing

theorem lookup_filter_ne :
    (entries.filter (·.1 != name)).lookup other =
      if other = name then none else entries.lookup other := by
  induction entries with
  | nil => simp
  | cons entry entries ih =>
      obtain ⟨first, held⟩ := entry
      by_cases same : first = name
      · rw [List.filter_cons_of_neg (by simp [same]), ih, lookup_cons_eq, same]
        split <;> rfl
      · rw [List.filter_cons_of_pos (by simpa using same), lookup_cons_eq, lookup_cons_eq, ih]
        by_cases h : other = first
        · simp [h, same]
        · simp [h]

/-- What is put somewhere changes that place and what is below it, and nothing else. -/
theorem occupant?_put (above : e.occupant? names = some .directory) :
    (put new (names ++ [name]) e).occupant? place =
      if names ++ [name] <+: place then new.occupant? (place.drop (names.length + 1))
      else e.occupant? place := by
  induction names generalizing e place with
  | nil =>
      obtain ⟨entries, here⟩ := occupant?_eq_directory_iff.mp above
      cases here
      cases place with
      | nil => simp [put]
      | cons next place =>
          by_cases h : next = name <;> simp [put, lookup_setNamed, h, Ne.symm]
  | cons first names ih =>
      cases e with
      | file bytes => simp at above
      | directory entries =>
          obtain ⟨below, there, inside⟩ : ∃ below, entries.lookup first = some below ∧
              below.occupant? names = some .directory := by
            simpa [Option.bind_eq_some_iff] using above
          cases place with
          | nil => simp [put]
          | cons next place =>
              by_cases h : next = first
              · simp [put, lookup_setNamed, h, there, ih inside]
              · simp [put, lookup_setNamed, h, Ne.symm h]

/-- What is taken out somewhere is gone with what is below it, and nothing else is. -/
theorem occupant?_erase (some' : names ≠ []) :
    (erase names e).occupant? place = if names <+: place then none else e.occupant? place := by
  induction names generalizing e place with
  | nil => exact absurd rfl some'
  | cons first names ih =>
      cases e with
      | file bytes =>
          cases place with
          | nil => simp [erase]
          | cons next place => simp [erase]
      | directory entries =>
          cases place with
          | nil =>
              cases names with
              | nil => simp [erase]
              | cons second names =>
                  simp only [erase]
                  split <;> simp
          | cons next place =>
              cases names with
              | nil => by_cases h : next = first <;> simp [erase, lookup_filter_ne, h, Ne.symm]
              | cons second names =>
                  by_cases h : next = first
                  · subst h
                    cases there : entries.lookup next with
                    | none => simp [erase, there]
                    | some below => simp [erase, there, lookup_setNamed, ih]
                  · cases there : entries.lookup first with
                    | none => simp [erase, there, Ne.symm h]
                    | some below => simp [erase, there, lookup_setNamed, h, Ne.symm h]

end Entity

namespace FileSystem

def step (here : List String) (name : String) : List String :=
  if name = ".." then here.dropLast else here ++ [name]

def start (fs : FileSystem) (p : Path) : List String :=
  if p.slashes = 0 then fs.current else []

/-- The place that a path leads to, if it leads anywhere. -/
def place (fs : FileSystem) (p : Path) : List String :=
  p.names.foldl step (fs.start p)

/-- The places on the way along some names, without the last one. -/
def waysFrom (here : List String) : List String → List (List String)
  | [] => []
  | name :: rest => here :: waysFrom (step here name) rest

def ways (fs : FileSystem) (p : Path) : List (List String) :=
  waysFrom (fs.start p) p.names

def occupant? (fs : FileSystem) (place : List String) : Option Occupant :=
  fs.root.occupant? place

/-- There is a directory everywhere on the way of a path. -/
def Open (fs : FileSystem) (p : Path) : Prop :=
  ∀ way ∈ fs.ways p, fs.occupant? way = some .directory

variable {fs : FileSystem} {p : Path} {here found names : List String}

theorem walk_eq_ok_iff (names : List String) :
    fs.walk here names = .ok found ↔
      (∀ way ∈ waysFrom here names, fs.occupant? way = some .directory) ∧
        names.foldl step here = found := by
  induction names generalizing here with
  | nil => simp [walk, waysFrom]
  | cons name rest ih =>
      simp only [walk, waysFrom, List.forall_mem_cons, List.foldl_cons]
      cases at' : fs.find here with
      | error cause =>
          have nothing : fs.occupant? here = none := Entity.occupant?_eq_none_iff.mpr ⟨cause, at'⟩
          simp [nothing]
      | ok entity =>
          cases entity with
          | file bytes =>
              have file : fs.occupant? here = some (.file bytes) :=
                Entity.occupant?_eq_file_iff.mpr at'
              simp [file]
          | directory entries =>
              have directory : fs.occupant? here = some .directory :=
                Entity.occupant?_eq_directory_iff.mpr ⟨entries, at'⟩
              simp only [directory, true_and]
              exact ih

theorem locate_eq_ok_iff : fs.locate p = .ok found ↔ fs.Open p ∧ fs.place p = found :=
  walk_eq_ok_iff p.names

theorem locate_of_open (h : fs.Open p) : fs.locate p = .ok (fs.place p) :=
  locate_eq_ok_iff.mpr ⟨h, rfl⟩

theorem read_eq_ok_iff {written : String} {bytes : List UInt8} :
    fs.read p written = .ok bytes ↔ fs.Open p ∧ fs.occupant? (fs.place p) = some (.file bytes) := by
  cases located : fs.locate p with
  | error cause =>
      have closed : ¬ fs.Open p := fun h => by rw [locate_of_open h] at located; cases located
      simp [read, located, Except.bind, closed]
  | ok found =>
      obtain ⟨is_open, rfl⟩ := locate_eq_ok_iff.mp located
      have looked : fs.occupant? (fs.place p) = some (.file bytes) ↔
          fs.find (fs.place p) = .ok (.file bytes) := Entity.occupant?_eq_file_iff
      rw [looked]
      cases at' : fs.find (fs.place p) with
      | error cause => simp [read, located, Except.bind, at']
      | ok entity => cases entity <;> simp [read, located, Except.bind, at', is_open]

theorem entity?_eq_some_iff {e : Entity} :
    fs.entity? p = some e ↔ fs.Open p ∧ fs.find (fs.place p) = .ok e := by
  cases located : fs.locate p with
  | error cause =>
      have closed : ¬ fs.Open p := fun h => by rw [locate_of_open h] at located; cases located
      simp [entity?, located, Except.bind, Except.toOption, closed]
  | ok found =>
      obtain ⟨is_open, rfl⟩ := locate_eq_ok_iff.mp located
      cases at' : fs.find (fs.place p) <;>
        simp [entity?, located, Except.bind, Except.toOption, at', is_open]

theorem isDirectory_iff :
    fs.isDirectory p = true ↔ fs.Open p ∧ fs.occupant? (fs.place p) = some .directory := by
  rw [occupant?, Entity.occupant?_eq_directory_iff]
  constructor
  · intro h
    obtain ⟨e, found, is⟩ := (Option.any_eq_true _ _).mp h
    obtain ⟨is_open, there⟩ := entity?_eq_some_iff.mp found
    cases e with
    | file bytes => cases is
    | directory entries => exact ⟨is_open, entries, there⟩
  · rintro ⟨is_open, entries, there⟩
    rw [isDirectory, entity?_eq_some_iff.mpr ⟨is_open, there⟩]
    rfl

theorem exists'_iff :
    fs.exists' p = true ↔ fs.Open p ∧ ∃ o, fs.occupant? (fs.place p) = some o := by
  rw [exists', Option.isSome_iff_exists]
  simp only [entity?_eq_some_iff, occupant?, Entity.occupant?_eq_some_iff]
  constructor
  · exact fun ⟨e, is_open, there⟩ => ⟨is_open, _, e, there, rfl⟩
  · exact fun ⟨is_open, _, e, there, _⟩ => ⟨e, is_open, there⟩

theorem exists'_eq_false (absent : fs.occupant? (fs.place p) = none) : fs.exists' p = false := by
  refine Bool.eq_false_iff.mpr fun there => ?_
  obtain ⟨-, o, stands⟩ := exists'_iff.mp there
  rw [absent] at stands
  cases stands

theorem readAt_toString (written : p.Written) (some' : p.names ≠ []) {bytes : List UInt8} :
    fs.readAt p.toString = .ok bytes ↔ fs.read p p.toString = .ok bytes := by
  rw [readAt, if_neg (Path.toString_ne_empty written), Path.ofString_toString written]
  cases fs.read p p.toString <;> simp [Path.toString_getLast? written some']

theorem step_of_name {here : List String} {name : String} (h : IsName name) :
    step here name = here ++ [name] := if_neg h.2.2.1

theorem foldl_step (each : ∀ name ∈ names, IsName name) :
    names.foldl step here = here ++ names := by
  induction names generalizing here with
  | nil => simp
  | cons name rest ih =>
      obtain ⟨first, later⟩ := List.forall_mem_cons.mp each
      rw [List.foldl_cons, ih later, step_of_name first, List.append_assoc, List.singleton_append]

theorem place_descend (each : ∀ name ∈ names, IsName name) :
    fs.place (p.descend names) = fs.place p ++ names := by
  rw [FileSystem.place, Path.descend, List.foldl_append]
  exact foldl_step each

theorem waysFrom_append (here : List String) (names rest : List String) :
    waysFrom here (names ++ rest) = waysFrom here names ++
      waysFrom (names.foldl step here) rest := by
  induction names generalizing here with
  | nil => rfl
  | cons name names ih => rw [List.cons_append, waysFrom, ih]; rfl

theorem ways_below (each : ∀ name ∈ names, IsName name) {o : Occupant}
    (there : fs.occupant? (here ++ names) = some o) :
    ∀ way ∈ waysFrom here names, fs.occupant? way = some .directory := by
  induction names generalizing here with
  | nil => simp [waysFrom]
  | cons name rest ih =>
      obtain ⟨first, later⟩ := List.forall_mem_cons.mp each
      refine List.forall_mem_cons.mpr ⟨Entity.directory_above (List.cons_ne_nil name rest) there,
        ?_⟩
      rw [step_of_name first]
      exact ih later (by simpa using there)

/-- The way to what stands below an open directory is open. -/
theorem open_descend (is_open : fs.Open p) (each : ∀ name ∈ names, IsName name) {o : Occupant}
    (there : fs.occupant? (fs.place p ++ names) = some o) : fs.Open (p.descend names) := by
  have ways : fs.ways (p.descend names) = fs.ways p ++ waysFrom (fs.place p) names :=
    waysFrom_append _ _ _
  intro way member
  rw [ways] at member
  rcases List.mem_append.mp member with before | after
  · exact is_open way before
  · exact ways_below each there way after

end FileSystem

end TestRoster
