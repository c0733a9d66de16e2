import Mathlib.Data.List.Induction
import TestRoster.CommandLine.Bundled
import TestRoster.Proofs.Files.Place
import TestRoster.Proofs.Run.Act
import TestRoster.Run.Execute

/-!
In which module, and in which package of it, a command runs.

Seen from the root of all files, a path without double points is the place that it leads to. The
root of a module is the nearest place above a target that holds the file of a module, and the
package that is named from there leads back to the directory of the target.
-/
namespace TestRoster

namespace Path

/-- From a directory, what lies below it is reached by the names that lead there. -/
theorem relativeNames_append (start below : List String) :
    relativeNames start (start ++ below) = below := by
  induction start with
  | nil => cases below <;> rfl
  | cons name start ih => rw [List.cons_append, relativeNames, if_pos rfl, ih]

theorem withAncestors_root (slashes : Nat) : withAncestors ⟨slashes, []⟩ = [⟨slashes, []⟩] := rfl

theorem withAncestors_concat (slashes : Nat) (names : List String) (name : String) :
    withAncestors ⟨slashes, names ++ [name]⟩ =
      ⟨slashes, names ++ [name]⟩ :: withAncestors ⟨slashes, names⟩ := by
  simp only [withAncestors, List.length_append, List.length_singleton]
  rw [List.range_succ_eq_map, List.map_cons, List.map_map]
  congr 1
  · rw [Nat.sub_zero, List.take_of_length_le (by simp)]
  · refine List.map_congr_left fun k member => ?_
    have few : names.length + 1 - (k + 1) ≤ names.length := by omega
    simp only [Function.comp_apply, Nat.succ_eq_add_one, List.take_append_of_le_length few]
    simp

/-- A path that starts at a point is the path without it. -/
theorem ofString_pointed {p : Path} (relative : p.slashes = 0) (some' : p.names ≠ [])
    (written : p.Written) : ofString ("./" ++ p.toString) = p := by
  obtain ⟨slashes, names⟩ := p
  cases relative
  have text : toString ⟨0, names⟩ = String.intercalate "/" names := by
    rw [toString, if_neg fun empty => some' empty.2]
    simp
  have dotted : namesOf ("./" ++ String.intercalate "/" names) =
      namesOf (String.intercalate "/" names) := by
    have point : '/' ∉ ['.'] := by decide
    rw [namesOf, namesOf, splitText, splitText, String.toList_append]
    change List.filter _ (List.map _ (splitAtChar '/' (['.'] ++ '/' :: _))) = _
    rw [splitAtChar_append point]
    rfl
  rw [text, ofString, dotted, namesOf_intercalate written.names]
  simp

end Path

namespace FileSystem

variable {fs : FileSystem} {p : Path} {names here place root : List String}

theorem isName_step (each : ∀ name ∈ here, IsName name) {name : String}
    (proper : name ≠ "" ∧ name ≠ "." ∧ '/' ∉ name.toList) : ∀ n ∈ step here name, IsName n := by
  rw [step]
  split
  next => exact fun n member => each n (List.dropLast_subset _ member)
  next up =>
    intro n member
    rcases List.mem_append.mp member with before | last
    · exact each n before
    · rw [List.mem_singleton.mp last]
      exact ⟨proper.1, proper.2.1, up, proper.2.2⟩

theorem isName_foldl_step (each : ∀ name ∈ here, IsName name)
    (proper : ∀ name ∈ names, name ≠ "" ∧ name ≠ "." ∧ '/' ∉ name.toList) :
    ∀ name ∈ names.foldl step here, IsName name := by
  induction names generalizing here with
  | nil => exact each
  | cons name names ih =>
      obtain ⟨first, later⟩ := List.forall_mem_cons.mp proper
      exact ih (isName_step each first) later

theorem isName_place (current : ∀ name ∈ fs.current, IsName name) (written : p.Written) :
    ∀ name ∈ fs.place p, IsName name := by
  refine isName_foldl_step ?_ written.names
  rw [start]
  split
  · exact current
  · simp

/-- Without links a path is resolved to the place that it leads to. -/
theorem resolve_eq (current : ∀ name ∈ fs.current, IsName name) (p : Path) :
    fs.resolve p = ⟨1, fs.place p⟩ := by
  have start : (Path.from' fs.here p).normalize.names = fs.place p := by
    rw [FileSystem.place, FileSystem.start, Path.from']
    split
    · change (fs.current ++ p.names).foldl step [] = _
      rw [List.foldl_append, foldl_step current, List.nil_append]
    · rfl
  rw [resolve, start]

theorem place_rooted (each : ∀ name ∈ names, IsName name) : fs.place ⟨1, names⟩ = names :=
  (foldl_step each).trans (List.nil_append names)

theorem open_rooted (each : ∀ name ∈ names, IsName name) {o : Occupant}
    (there : fs.occupant? names = some o) : fs.Open ⟨1, names⟩ :=
  ways_below each ((List.nil_append names).symm ▸ there)

theorem resolve_rooted (current : ∀ name ∈ fs.current, IsName name)
    (each : ∀ name ∈ names, IsName name) : fs.resolve ⟨1, names⟩ = ⟨1, names⟩ := by
  rw [resolve_eq current, place_rooted each]

theorem isFile_rooted (each : ∀ name ∈ names, IsName name) :
    fs.isFile ⟨1, names⟩ = true ↔ ∃ bytes, fs.occupant? names = some (.file bytes) := by
  rw [isFile, Option.any_eq_true]
  simp only [entity?_eq_some_iff, place_rooted each]
  constructor
  · rintro ⟨e, ⟨-, there⟩, is⟩
    cases e with
    | file bytes => exact ⟨bytes, Entity.occupant?_eq_file_iff.mpr there⟩
    | directory entries => cases is
  · rintro ⟨bytes, there⟩
    exact ⟨_, ⟨open_rooted each there, Entity.occupant?_eq_file_iff.mp there⟩, rfl⟩

theorem exists'_rooted (each : ∀ name ∈ names, IsName name) :
    fs.exists' ⟨1, names⟩ = true ↔ ∃ o, fs.occupant? names = some o := by
  rw [exists'_iff, place_rooted each]
  exact and_iff_right_of_imp fun ⟨_, there⟩ => open_rooted each there

/-- The directory that a target stands for, by the place that the target leads to: that of a file,
also of a missing one if the name looks like a file's, and otherwise the place itself. -/
inductive StandsFor (fs : FileSystem) (place : List String) : List String → Prop
  | file {bytes : List UInt8} (here : fs.occupant? place = some (.file bytes)) :
      StandsFor fs place place.dropLast
  | directory (here : fs.occupant? place = some .directory) : StandsFor fs place place
  | missingFile (nothing : fs.occupant? place = none)
      (suffix : Path.suffixOf (place.getLast?.getD "") ≠ "") : StandsFor fs place place.dropLast
  | missing (nothing : fs.occupant? place = none)
      (suffix : Path.suffixOf (place.getLast?.getD "") = "") : StandsFor fs place place

theorem StandsFor.isName {directory : List String} (stands : fs.StandsFor place directory)
    (each : ∀ name ∈ place, IsName name) : ∀ name ∈ directory, IsName name := by
  cases stands with
  | file | missingFile => exact fun name member => each name (List.dropLast_subset _ member)
  | directory | missing => exact each

theorem exists_standsFor (fs : FileSystem) (each : ∀ name ∈ place, IsName name) :
    ∃ directory, fs.StandsFor place directory ∧ fs.directoryOf ⟨1, place⟩ = ⟨1, directory⟩ := by
  have isFile : fs.isFile ⟨1, place⟩ = true ↔ _ := isFile_rooted each
  have exists' : fs.exists' ⟨1, place⟩ = true ↔ _ := exists'_rooted each
  cases there : fs.occupant? place with
  | some o =>
      have found : fs.exists' ⟨1, place⟩ = true := exists'.mpr ⟨o, there⟩
      cases o with
      | file bytes =>
          refine ⟨_, .file there, ?_⟩
          rw [directoryOf, isFile.mpr ⟨bytes, there⟩]
          rfl
      | directory =>
          have other : fs.isFile ⟨1, place⟩ = false := by
            simpa [there] using isFile
          refine ⟨_, .directory there, ?_⟩
          rw [directoryOf, other, found]
          simp
  | none =>
      have other : fs.isFile ⟨1, place⟩ = false := by simpa [there] using isFile
      have absent : fs.exists' ⟨1, place⟩ = false := exists'_eq_false (by rwa [place_rooted each])
      by_cases suffix : Path.suffixOf (place.getLast?.getD "") = ""
      · refine ⟨_, .missing there suffix, ?_⟩
        rw [directoryOf, other, absent, Path.suffix, Path.name, suffix]
        rfl
      · refine ⟨_, .missingFile there suffix, ?_⟩
        rw [directoryOf, other, absent, Path.suffix, Path.name, bne_iff_ne.mpr suffix]
        rfl

def HoldsModule (fs : FileSystem) (place : List String) : Prop :=
  ∃ bytes, fs.occupant? (place ++ [moduleFile]) = some (.file bytes)

/-- The nearest place above another one, or the place itself, that holds the file of a module. -/
structure NearestModule (fs : FileSystem) (place root : List String) : Prop where
  above : root <+: place
  holds : fs.HoldsModule root
  nearest : ∀ other, other <+: place → fs.HoldsModule other → other <+: root

theorem isModuleRoot_rooted (each : ∀ name ∈ names, IsName name) :
    fs.isModuleRoot ⟨1, names⟩ = true ↔ fs.HoldsModule names := by
  change fs.isFile ⟨1, names ++ [moduleFile]⟩ = true ↔ _
  refine isFile_rooted fun name member => ?_
  rcases List.mem_append.mp member with before | last
  · exact each name before
  · rw [List.mem_singleton.mp last]
    simp [IsName, moduleFile]

/-- The search goes up name by name; a module that is found on the way is nearer than all above. -/
theorem find?_withAncestors (fs : FileSystem) (each : ∀ name ∈ place, IsName name) :
    (∃ root, fs.NearestModule place root ∧
        (Path.withAncestors ⟨1, place⟩).find? fs.isModuleRoot = some ⟨1, root⟩) ∨
      (∀ above, above <+: place → ¬ fs.HoldsModule above) ∧
        (Path.withAncestors ⟨1, place⟩).find? fs.isModuleRoot = none := by
  have found : ∀ {names : List String} {ancestors : List Path}, (∀ name ∈ names, IsName name) →
      fs.HoldsModule names → fs.NearestModule names names ∧
        (⟨1, names⟩ :: ancestors : List Path).find? fs.isModuleRoot = some ⟨1, names⟩ :=
    fun each holds => ⟨⟨List.prefix_rfl, holds, fun _ above _ => above⟩,
      List.find?_cons_of_pos ((isModuleRoot_rooted each).mpr holds)⟩
  have passed : ∀ {names : List String} {ancestors : List Path}, (∀ name ∈ names, IsName name) →
      ¬ fs.HoldsModule names → (⟨1, names⟩ :: ancestors : List Path).find? fs.isModuleRoot =
        ancestors.find? fs.isModuleRoot :=
    fun each none => List.find?_cons_of_neg (mt (isModuleRoot_rooted each).mp none)
  induction place using List.reverseRecOn with
  | nil =>
      rw [Path.withAncestors_root]
      by_cases holds : fs.HoldsModule []
      · exact .inl ⟨[], found each holds⟩
      · refine .inr ⟨fun above prefix' => ?_, passed each holds⟩
        rwa [List.prefix_nil.mp prefix']
  | append_singleton names name ih =>
      rw [Path.withAncestors_concat]
      by_cases holds : fs.HoldsModule (names ++ [name])
      · exact .inl ⟨_, found each holds⟩
      · rw [passed each holds]
        rcases ih fun n member => each n (List.mem_append_left _ member) with
          ⟨root, module', search⟩ | ⟨none, search⟩
        · refine .inl ⟨root, ⟨module'.above.trans (List.prefix_append _ _), module'.holds, ?_⟩,
            search⟩
          intro other prefix' here
          rcases List.prefix_concat_iff.mp prefix' with rfl | above
          · exact absurd here holds
          · exact module'.nearest other above here
        · refine .inr ⟨fun above prefix' => ?_, search⟩
          rcases List.prefix_concat_iff.mp prefix' with rfl | above
          · exact holds
          · exact none _ above

/-- A package as it is written for the tool, which runs at the root of the module, and the directory
that this leads to from there. -/
structure PackageAt (root place : List String) (package : String) : Prop where
  written : package = "." ∨ "./".toList <+: package.toList
  leads : (Path.from' ⟨1, root⟩ (Path.ofString package)).normalize = ⟨1, place⟩

theorem packageTarget_eq (current : ∀ name ∈ fs.current, IsName name) {below : List String}
    (each : ∀ name ∈ root, IsName name)
    (target : fs.directoryOf (fs.resolve p) = ⟨1, root ++ below⟩)
    (named : Bool) :
    fs.packageTarget p ⟨1, root⟩ named =
      if below = [] then (if named then "." else "./...")
      else "./" ++ (⟨0, below⟩ : Path).toString := by
  rw [packageTarget, target, resolve_rooted current each, Path.relativeTo,
    Path.relativeNames_append]

theorem packageAt_written {below : List String} (each : ∀ name ∈ root ++ below, IsName name) :
    PackageAt root (root ++ below)
      (if below = [] then "." else "./" ++ (⟨0, below⟩ : Path).toString) := by
  have joined : (Path.from' ⟨1, root⟩ ⟨0, below⟩).normalize = ⟨1, root ++ below⟩ := by
    change Path.mk 1 ((root ++ below).foldl step []) = _
    rw [foldl_step each, List.nil_append]
  split
  next empty =>
    subst empty
    exact ⟨.inl rfl, joined⟩
  next some' =>
    have written : (⟨0, below⟩ : Path).Written :=
      ⟨Nat.zero_le 2, fun name member => by
        obtain ⟨named, single, -, free⟩ := each name (List.mem_append_right root member)
        exact ⟨named, single, free⟩⟩
    refine ⟨.inr ?_, ?_⟩
    · rw [String.toList_append]
      exact List.prefix_append _ _
    · rw [Path.ofString_pointed rfl some' written]
      exact joined

end FileSystem

namespace Act

variable {s : Session} {target : String}

theorem run_moduleRoot (target : String) (s : Session) :
    (moduleRoot target).run s =
      match s.files.moduleRoot? (Path.ofString target) with
      | some root => (.ok root, s)
      | none => (.error (.noModule target), s) := by
  rw [moduleRoot, run_bind_ok (run_get s)]
  cases s.files.moduleRoot? (Path.ofString target) <;> rfl

theorem run_reportIf (asked : Bool) (name : String) (directory : Option String) (s : Session) :
    ∃ file s', (reportIf asked name directory).run s = (.ok file, s') := by
  cases asked with
  | false => exact ⟨none, s, rfl⟩
  | true => exact ⟨_, _, rfl⟩

/-- A command for tests is made as soon as its module is found. -/
theorem run_testCommand {root : Path} {test : Option TestCase} {other : String}
    (found : (moduleRoot (effectiveTarget test other)).run s = (.ok root, s)) (options : RunOptions)
    (reports : Option String) :
    ∃ c s', (testCommand test other none options reports).run s = (.ok c, s') ∧
      c.directory = root.toString ∧
      ["go", "test"] ++ (if options.quiet then [] else ["-v"]) ++
          [s.files.packageTarget (Path.ofString (effectiveTarget test other)) root test.isSome] <+:
        c.args := by
  obtain ⟨cover, s₁, covered⟩ :=
    run_reportIf options.cover ((test.map TestCase.name).getD "") reports s
  obtain ⟨cpu, s₂, profiled⟩ :=
    run_reportIf options.cpuProfile ((test.map TestCase.name).getD "") reports s₁
  obtain ⟨mem, s₃, measured⟩ :=
    run_reportIf options.memProfile ((test.map TestCase.name).getD "") reports s₂
  let package := s.files.packageTarget (Path.ofString (effectiveTarget test other)) root test.isSome
  refine ⟨(Command.forTest test package root.toString options).withReports ⟨cover, cpu, mem⟩, s₃,
    ?ran,
    rfl, ?args⟩
  case ran =>
    rw [testCommand, rootOr, run_bind_ok found, run_bind_ok (run_get s), run_bind_ok covered,
      run_bind_ok profiled, run_bind_ok measured]
    rfl
  case args =>
    simp only [Command.withReports, Command.forTest, List.append_assoc,
      List.prefix_append_right_inj]
    exact List.prefix_append _ _

theorem run_testCommand_error {test : Option TestCase} {other : String} {e : Failure}
    (none' : (moduleRoot (effectiveTarget test other)).run s = (.error e, s)) (options : RunOptions)
    (reports : Option String) :
    (testCommand test other none options reports).run s = (.error e, s) := by
  rw [testCommand, rootOr, run_bind_error none']

end Act

open FileSystem in
/-- The module of a target is found if there is one, and it is the nearest: no directory between its
root and the directory of the target has the file of a module. The package that is named from the
root leads to that directory, and only without the name of a test the root stands for all packages.
A command for tests runs at the root on this package; where there is no module, the search and the
command fail as such. -/
theorem commands_run_in_package_of_nearest_module (s : Session)
    (current : ∀ name ∈ s.files.current, IsName name) (target : String) :
    ∃ place, s.files.StandsFor (s.files.place (Path.ofString target)) place ∧
      ((∃ root, s.files.NearestModule place root ∧
          (Act.moduleRoot target).run s = (.ok ⟨1, root⟩, s) ∧
          PackageAt root place (s.files.packageTarget (Path.ofString target) ⟨1, root⟩ true) ∧
          s.files.packageTarget (Path.ofString target) ⟨1, root⟩ false =
            (if place = root then "./..."
              else s.files.packageTarget (Path.ofString target) ⟨1, root⟩ true) ∧
          ∀ test other options reports, Act.effectiveTarget test other = target →
            ∃ c s', (Act.testCommand test other none options reports).run s = (.ok c, s') ∧
              c.directory = (⟨1, root⟩ : Path).toString ∧
              ["go", "test"] ++ (if options.quiet then [] else ["-v"]) ++
                  [s.files.packageTarget (Path.ofString target) ⟨1, root⟩ test.isSome] <+: c.args) ∨
        (∀ above, above <+: place → ¬ s.files.HoldsModule above) ∧
          (Act.moduleRoot target).run s = (.error (.noModule target), s) ∧
          ∀ test other options reports, Act.effectiveTarget test other = target →
            (Act.testCommand test other none options reports).run s =
              (.error (.noModule target), s)) := by
  have names := isName_place current (Path.written_ofString target)
  have resolved := resolve_eq current (Path.ofString target)
  obtain ⟨place, stands, directory⟩ := exists_standsFor s.files names
  rw [← resolved] at directory
  have search : s.files.moduleRoot? (Path.ofString target) =
      (Path.withAncestors ⟨1, place⟩).find? s.files.isModuleRoot := by
    rw [moduleRoot?, directory]
  have ran := Act.run_moduleRoot target s
  rw [search] at ran
  refine ⟨place, stands, ?_⟩
  rcases find?_withAncestors s.files (stands.isName names) with
    ⟨root, nearest, found⟩ | ⟨none', found⟩
  · rw [found] at ran
    obtain ⟨below, rfl⟩ := nearest.above
    have proper := stands.isName names
    have package := packageTarget_eq current
      (fun name member => proper name (List.mem_append_left below member)) directory
    refine .inl ⟨root, nearest, ran, ?package, ?all, ?command⟩
    case package =>
      rw [package]
      exact packageAt_written proper
    case all =>
      rw [package, package]
      by_cases empty : below = [] <;> simp [empty]
    case command =>
      rintro test other options reports rfl
      exact Act.run_testCommand ran options reports
  · rw [found] at ran
    refine .inr ⟨none', ran, ?_⟩
    rintro test other options reports rfl
    exact Act.run_testCommand_error ran options reports

/-- A module with a module inside, which has a directory with a point in its name. -/
def nestedModules : Session where
  files :=
    { root := .directory
        [("w", .directory
          [("go.mod", .file []),
            ("inner", .directory
              [("go.mod", .file []), ("v1.2", .directory [("go.mod", .directory [])])])])]
      current := ["w"] }
  clock := { year := 2024, month := 1, day := 1 }
  homes := { own := "/home/user", programDirectory := "/home/user/.config/go-test" }
  library := .bundled
  toolDirectory := "/usr/local/bin"

open FileSystem in
theorem missing_file_runs_in_nested_module :
    (∀ name ∈ nestedModules.files.current, IsName name) ∧
      ∃ root, nestedModules.files.NearestModule ["w", "inner", "v1.2"] root ∧
        ["w", "inner"] <+: root ∧
        (Act.moduleRoot "gone/../inner/v1.2/gone_test.go").run nestedModules =
          (.ok ⟨1, root⟩, nestedModules) ∧
        PackageAt root ["w", "inner", "v1.2"] (nestedModules.files.packageTarget
          (Path.ofString "gone/../inner/v1.2/gone_test.go") ⟨1, root⟩ true) := by
  have current : ∀ name ∈ nestedModules.files.current, IsName name := by
    simp [nestedModules, IsName]
  have holds : nestedModules.files.HoldsModule ["w", "inner"] := ⟨[], by decide +kernel⟩
  have leads : nestedModules.files.place (Path.ofString "gone/../inner/v1.2/gone_test.go") =
      ["w", "inner", "v1.2", "gone_test.go"] := by decide +kernel
  have nothing : nestedModules.files.occupant? ["w", "inner", "v1.2", "gone_test.go"] = none := by
    decide +kernel
  obtain ⟨place, stands, module'⟩ :=
    commands_run_in_package_of_nearest_module nestedModules current
      "gone/../inner/v1.2/gone_test.go"
  rw [leads] at stands
  cases stands with
  | file here | directory here => rw [nothing] at here; cases here
  | missing _ plain => exact absurd plain (by decide +kernel)
  | missingFile _ _ =>
      rcases module' with ⟨root, nearest, ran, package, -⟩ | ⟨none', -⟩
      · exact ⟨current, root, nearest, nearest.nearest _ ⟨_, rfl⟩ holds, ran, package⟩
      · exact absurd holds (none' _ ⟨_, rfl⟩)

end TestRoster
