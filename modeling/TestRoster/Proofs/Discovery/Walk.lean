import Mathlib.Data.List.Basic
import TestRoster.Discovery.Directory
import TestRoster.Proofs.Files.Place

/-!
Which files a walk through a directory finds, and in which order.

The walk is described by the names that lead from the directory to each file. They come in one
order, which the names alone decide, so two trees with the same files are walked alike.
-/
namespace TestRoster

/-- Whether a file comes before another one in a walk, each given by the names that lead to it: the
files of a directory before what its subdirectories hold, and both by their names. -/
def WalkBefore : List String → List String → Prop
  | [], _ | _, [] => False
  | [f], [g] => f < g
  | [_], _ :: _ :: _ => True
  | _ :: _ :: _, [_] => False
  | d :: f :: fs, e :: g :: gs => d < e ∨ d = e ∧ WalkBefore (f :: fs) (g :: gs)

/-- The names lead from a directory to a test file, through no directory that is left out. -/
structure Config.Lists (cfg : Config) (directory : Entity) (names : List String) : Prop where
  file : ∃ bytes, directory.find names = .ok (.file bytes)
  named : ∃ name ∈ names.getLast?, cfg.testFileSuffix.toList <:+ name.toList
  entered : ∀ name ∈ names.dropLast,
    name ∉ cfg.skipDirs ∧ name.toList.head? ≠ some '.' ∧ name.toList.head? ≠ some '_'

section Order

variable {a b c : List String}

theorem WalkBefore.cons (h : WalkBefore a b) (name : String) :
    WalkBefore (name :: a) (name :: b) := by
  cases a with
  | nil => simp [WalkBefore] at h
  | cons f fs =>
      cases b with
      | nil => simp [WalkBefore] at h
      | cons g gs => exact .inr ⟨rfl, h⟩

theorem WalkBefore.irrefl (a : List String) : ¬ WalkBefore a a := by
  induction a with
  | nil => simp [WalkBefore]
  | cons name rest ih =>
      cases rest with
      | nil => exact String.lt_irrefl name
      | cons second rest => simpa [WalkBefore, String.lt_irrefl] using ih

theorem WalkBefore.asymm (h : WalkBefore a b) : ¬ WalkBefore b a := by
  induction a generalizing b with
  | nil => simp [WalkBefore] at h
  | cons d r ih =>
      rcases b with _ | ⟨e, s⟩
      · simp [WalkBefore] at h
      · rcases r with _ | ⟨f, r⟩ <;> rcases s with _ | ⟨g, s⟩
        · exact String.lt_asymm h
        · simp [WalkBefore]
        · simp [WalkBefore] at h
        · rintro (after | ⟨rfl, after⟩)
          · rcases h with before | ⟨rfl, -⟩
            · exact String.lt_asymm before after
            · exact String.lt_irrefl _ after
          · rcases h with before | ⟨-, before⟩
            · exact String.lt_irrefl _ before
            · exact ih before after

/-- The order of a walk leaves no choice: the same files are walked in the same order. -/
theorem walk_unique {l m : List (List String)} (sorted : l.Pairwise WalkBefore)
    (sorted' : m.Pairwise WalkBefore) (same : ∀ names, names ∈ l ↔ names ∈ m) : l = m := by
  have nodup : ∀ {l : List (List String)}, l.Pairwise WalkBefore → l.Nodup := fun sorted =>
    sorted.imp fun before => by rintro rfl; exact WalkBefore.irrefl _ before
  have perm : l.Perm m := (List.perm_ext_iff_of_nodup (nodup sorted) (nodup sorted')).mpr same
  exact perm.eq_of_pairwise (fun _ _ _ _ before after => absurd after before.asymm) sorted sorted'

end Order

namespace Entity

variable {cfg : Config} {entries : List (String × Entity)}

/-- Induction on a directory, with what holds of its subdirectories. -/
theorem directory_induction {motive : List (String × Entity) → Prop}
    (step : ∀ entries, (∀ name inner, (name, .directory inner) ∈ entries → motive inner) →
      motive entries) (entries : List (String × Entity)) : motive entries :=
  step entries fun _ inner _ => directory_induction step inner
termination_by sizeOf entries
decreasing_by
  have smaller := List.sizeOf_lt_of_mem ‹_›
  simp only [Prod.mk.sizeOf_spec, directory.sizeOf_spec] at smaller
  omega

def listing (cfg : Config) (here : Path) : String × Entity → Listing
  | (name, .file _) => ⟨name, true, if cfg.isTestFile name then [here.child name] else []⟩
  | (name, .directory inner) =>
      ⟨name, false,
        if cfg.enters name then testFiles cfg (here.child name) (.directory inner) else []⟩

theorem listings_eq_map (here : Path) : listings cfg here entries =
    entries.map (listing cfg here) := by
  induction entries with
  | nil => rw [listings]; rfl
  | cons entry entries ih =>
      obtain ⟨name, e⟩ := entry
      cases e <;> rw [listings, ih] <;> rfl

def byName (entries : List (String × Entity)) : List (String × Entity) :=
  entries.mergeSort fun a b => !decide (b.1 < a.1)

theorem mem_byName_filter {kind : String × Entity → Bool} {entry : String × Entity} :
    entry ∈ byName (entries.filter kind) ↔ entry ∈ entries ∧ kind entry = true :=
  ((List.mergeSort_perm _ _).mem_iff).trans List.mem_filter

theorem merge_map_listing (here : Path) (entries : List (String × Entity)) :
    Listing.merge (entries.map (listing cfg here)) =
      (byName entries).flatMap fun entry => (listing cfg here entry).files := by
  have named : ∀ entry, (listing cfg here entry).name = entry.1
    | (_, .file _) | (_, .directory _) => rfl
  rw [Listing.merge, byName, ← List.map_mergeSort (fun a _ b _ => by rw [named, named]),
    List.flatMap_map]

theorem testFiles_directory (here : Path) :
    testFiles cfg here (.directory entries) =
      ((byName (entries.filter (·.2.isFile))).flatMap fun entry =>
        (listing cfg here entry).files) ++
      ((byName (entries.filter (·.2.isDirectory))).flatMap fun entry =>
        (listing cfg here entry).files) := by
  have files : (fun l : Listing => l.isFile) ∘ listing cfg here = fun entry => entry.2.isFile := by
    funext ⟨name, e⟩
    cases e <;> rfl
  have others : (fun l : Listing => !l.isFile) ∘ listing cfg here =
      fun entry => entry.2.isDirectory := by
    funext ⟨name, e⟩
    cases e <;> rfl
  rw [testFiles, listings_eq_map, List.filter_map, List.filter_map, files, others,
    merge_map_listing, merge_map_listing]

/-- A directory is walked in the same way wherever it stands. -/
theorem testFiles_move (cfg : Config) (move : Path → Path)
    (along : ∀ p name, (move p).child name = move (p.child name))
    (entries : List (String × Entity)) (here : Path) :
    testFiles cfg (move here) (.directory entries) =
      (testFiles cfg here (.directory entries)).map move := by
  induction entries using directory_induction generalizing here with
  | step entries ih =>
      have moved : ∀ entry ∈ entries, (listing cfg (move here) entry).files =
          (listing cfg here entry).files.map move := by
        rintro ⟨name, e⟩ member
        cases e with
        | file bytes =>
            simp only [listing, along]
            split <;> rfl
        | directory inner =>
            simp only [listing, along, ih name inner member]
            split <;> rfl
      rw [testFiles_directory, testFiles_directory, List.map_append, List.map_flatMap,
        List.map_flatMap]
      congr 1
      · exact List.flatMap_congr fun entry member => moved entry (mem_byName_filter.mp member).1
      · exact List.flatMap_congr fun entry member => moved entry (mem_byName_filter.mp member).1

/-- The names that lead from a directory to the test files that the walk finds. -/
def walk (cfg : Config) (entries : List (String × Entity)) : List (List String) :=
  (testFiles cfg ⟨0, []⟩ (.directory entries)).map Path.names

theorem testFiles_eq_walk (here : Path) :
    testFiles cfg here (.directory entries) = (walk cfg entries).map here.descend := by
  have move := testFiles_move cfg (fun p => here.descend p.names)
    (fun p name => by simp [Path.child, Path.descend]) entries ⟨0, []⟩
  have start : here.descend [] = here := by simp [Path.descend]
  rw [start] at move
  rw [walk, List.map_map, move]
  rfl

def entryWalk (cfg : Config) : String × Entity → List (List String)
  | (name, .file _) => if cfg.isTestFile name then [[name]] else []
  | (name, .directory inner) =>
      if cfg.enters name then (walk cfg inner).map (name :: ·) else []

theorem walk_eq :
    walk cfg entries =
      (byName (entries.filter (·.2.isFile))).flatMap (entryWalk cfg) ++
        (byName (entries.filter (·.2.isDirectory))).flatMap (entryWalk cfg) := by
  have found : (fun entry => ((listing cfg ⟨0, []⟩ entry).files.map Path.names)) =
    entryWalk cfg := by
    funext ⟨name, e⟩
    cases e with
    | file bytes =>
        simp only [listing, entryWalk]
        split <;> rfl
    | directory inner =>
        simp only [listing, entryWalk, testFiles_eq_walk]
        split
        · rw [List.map_map]; rfl
        · rfl
  rw [walk, testFiles_directory, List.map_append, List.map_flatMap, List.map_flatMap, found]

theorem mem_walk_iff {names : List String} :
    names ∈ walk cfg entries ↔ ∃ entry ∈ entries, names ∈ entryWalk cfg entry := by
  rw [walk_eq, List.mem_append, List.mem_flatMap, List.mem_flatMap]
  simp only [mem_byName_filter]
  constructor
  · rintro (⟨entry, ⟨member, -⟩, found⟩ | ⟨entry, ⟨member, -⟩, found⟩) <;> exact ⟨entry, member,
      found⟩
  · rintro ⟨⟨name, e⟩, member, found⟩
    cases e with
    | file bytes => exact .inl ⟨_, ⟨member, rfl⟩, found⟩
    | directory inner => exact .inr ⟨_, ⟨member, rfl⟩, found⟩

end Entity

namespace Config

variable {cfg : Config} {entries inner : List (String × Entity)} {name : String}
  {names : List String}

theorem isTestFile_iff : cfg.isTestFile name = true ↔ cfg.testFileSuffix.toList <:+ name.toList :=
  List.isSuffixOf_iff_suffix

theorem enters_iff :
    cfg.enters name = true ↔
      name ∉ cfg.skipDirs ∧ name.toList.head? ≠ some '.' ∧ name.toList.head? ≠ some '_' := by
  simp [enters, and_assoc]

theorem lists_file {bytes : List UInt8} (there : entries.lookup name = some (.file bytes)) :
    cfg.Lists (.directory entries) (name :: names) ↔ names = [] ∧ cfg.isTestFile name = true := by
  constructor
  · rintro ⟨⟨bytes, found⟩, ⟨last, ends, suffix⟩, -⟩
    cases names with
    | nil =>
        cases ends
        exact ⟨rfl, isTestFile_iff.mpr suffix⟩
    | cons second rest => simp [Entity.find, there] at found
  · rintro ⟨rfl, suffix⟩
    exact ⟨⟨bytes, by simp [Entity.find, there]⟩, ⟨name, rfl, isTestFile_iff.mp suffix⟩, by simp⟩

theorem lists_directory (there : entries.lookup name = some (.directory inner)) :
    cfg.Lists (.directory entries) (name :: names) ↔
      cfg.enters name = true ∧ cfg.Lists (.directory inner) names := by
  have inside : (Entity.directory entries).find (name :: names) =
      (Entity.directory inner).find names := by simp [Entity.find, there]
  constructor
  · rintro ⟨⟨bytes, found⟩, last, entered⟩
    rw [inside] at found
    cases names with
    | nil => cases found
    | cons second rest =>
        obtain ⟨first, later⟩ := List.forall_mem_cons.mp entered
        exact ⟨enters_iff.mpr first, ⟨bytes, found⟩, last, later⟩
  · rintro ⟨first, ⟨bytes, found⟩, last, later⟩
    cases names with
    | nil => cases found
    | cons second rest =>
        exact ⟨⟨bytes, inside ▸ found⟩, last,
          List.forall_mem_cons.mpr ⟨enters_iff.mp first, later⟩⟩

end Config

namespace Entity

variable {cfg : Config} {entries : List (String × Entity)}

/-- The walk finds the files that it is to list, and no others. -/
theorem mem_walk (h : (Entity.directory entries).WellFormed) (names : List String) :
    names ∈ walk cfg entries ↔ cfg.Lists (.directory entries) names := by
  induction entries using directory_induction generalizing names with
  | step entries ih =>
      obtain ⟨once, -, each⟩ := h.ofEntries
      rw [mem_walk_iff]
      constructor
      · rintro ⟨⟨name, e⟩, member, found⟩
        have there := (lookup_eq_some_iff_mem once).mpr member
        cases e with
        | file bytes =>
            simp only [entryWalk] at found
            split at found
            · rw [List.mem_singleton.mp found]
              exact (Config.lists_file there).mpr ⟨rfl, ‹_›⟩
            · cases found
        | directory inner =>
            simp only [entryWalk] at found
            split at found
            · obtain ⟨rest, listed, rfl⟩ := List.mem_map.mp found
              have inside := (ih name inner member (each _ member) rest).mp listed
              exact (Config.lists_directory there).mpr ⟨‹_›, inside⟩
            · cases found
      · intro listed
        cases names with
        | nil => obtain ⟨bytes, found⟩ := listed.file; cases found
        | cons name rest =>
            obtain ⟨bytes, found⟩ := listed.file
            cases there : entries.lookup name with
            | none => simp [Entity.find, there] at found
            | some e =>
                have member := (lookup_eq_some_iff_mem once).mp there
                refine ⟨_, member, ?_⟩
                cases e with
                | file held =>
                    obtain ⟨rfl, suffix⟩ := (Config.lists_file there).mp listed
                    simp [entryWalk, suffix]
                | directory inner =>
                    obtain ⟨first, later⟩ := (Config.lists_directory there).mp listed
                    have inside := (ih name inner member (each _ member) rest).mpr later
                    simp [entryWalk, first, inside]

/-- Entries that have their names once stand in their strict order. -/
theorem byName_pairwise (once : (entries.map Prod.fst).Nodup) (kind : String × Entity → Bool) :
    (byName (entries.filter kind)).Pairwise fun a b => a.1 < b.1 :=
  sorted_by_name (fun a b => by rw [Bool.not_eq_true', decide_eq_false_iff_not, String.not_lt])
    (once.sublist (List.filter_sublist.map Prod.fst))

theorem entryWalk_of_isFile {entry : String × Entity} {names : List String}
    (isFile : entry.2.isFile = true) (found : names ∈ entryWalk cfg entry) : names = [entry.1] := by
  obtain ⟨name, bytes | inner⟩ := entry
  · simp only [entryWalk] at found
    split at found
    · exact List.mem_singleton.mp found
    · cases found
  · cases isFile

theorem entryWalk_of_isDirectory {entry : String × Entity} {names : List String}
    (well : entry.2.WellFormed) (isDirectory : entry.2.isDirectory = true)
    (found : names ∈ entryWalk cfg entry) : ∃ second rest, names = entry.1 :: second :: rest := by
  obtain ⟨name, bytes | inner⟩ := entry
  · cases isDirectory
  · simp only [entryWalk] at found
    split at found
    · obtain ⟨rest, listed, rfl⟩ := List.mem_map.mp found
      obtain ⟨bytes, reached⟩ := ((mem_walk well rest).mp listed).file
      cases rest with
      | nil => cases reached
      | cons second rest => exact ⟨second, rest, rfl⟩
    · cases found

/-- What is found by one entry is in order if the walks below it are. -/
theorem entryWalk_pairwise {entry : String × Entity}
    (below : ∀ name inner, entry = (name, .directory inner) →
      (walk cfg inner).Pairwise WalkBefore) :
    (entryWalk cfg entry).Pairwise WalkBefore := by
  obtain ⟨name, bytes | inner⟩ := entry
  · simp only [entryWalk]
    split <;> simp
  · simp only [entryWalk]
    split
    · exact List.pairwise_map.mpr ((below name inner rfl).imp fun before => before.cons name)
    · exact .nil

theorem walk_pairwise (h : (Entity.directory entries).WellFormed) :
    (walk cfg entries).Pairwise WalkBefore := by
  induction entries using directory_induction with
  | step entries ih =>
      obtain ⟨once, -, each⟩ := h.ofEntries
      have within : ∀ entry ∈ entries, (entryWalk cfg entry).Pairwise WalkBefore :=
        fun entry member => entryWalk_pairwise fun name inner same =>
          ih name inner (same ▸ member) (by simpa [same] using each _ member)
      rw [walk_eq, List.pairwise_append, List.pairwise_flatMap, List.pairwise_flatMap]
      refine ⟨⟨fun entry member => within entry (mem_byName_filter.mp member).1, ?files⟩,
        ⟨fun entry member => within entry (mem_byName_filter.mp member).1, ?directories⟩, ?between⟩
      case files =>
        refine (byName_pairwise once _).imp_of_mem fun memberA memberB before => ?_
        intro x foundX y foundY
        rw [entryWalk_of_isFile (mem_byName_filter.mp memberA).2 foundX,
          entryWalk_of_isFile (mem_byName_filter.mp memberB).2 foundY]
        exact before
      case directories =>
        refine (byName_pairwise once _).imp_of_mem fun memberA memberB before => ?_
        obtain ⟨inA, directoryA⟩ := mem_byName_filter.mp memberA
        obtain ⟨inB, directoryB⟩ := mem_byName_filter.mp memberB
        intro x foundX y foundY
        obtain ⟨f, fs, rfl⟩ := entryWalk_of_isDirectory (each _ inA) directoryA foundX
        obtain ⟨g, gs, rfl⟩ := entryWalk_of_isDirectory (each _ inB) directoryB foundY
        exact .inl before
      case between =>
        intro x foundX y foundY
        obtain ⟨a, memberA, foundX⟩ := List.mem_flatMap.mp foundX
        obtain ⟨b, memberB, foundY⟩ := List.mem_flatMap.mp foundY
        obtain ⟨inB, directoryB⟩ := mem_byName_filter.mp memberB
        obtain ⟨g, gs, rfl⟩ := entryWalk_of_isDirectory (each _ inB) directoryB foundY
        rw [entryWalk_of_isFile (mem_byName_filter.mp memberA).2 foundX]
        trivial

end Entity

end TestRoster
