import TestRoster.CommandLine.Bundled
import TestRoster.Proofs.Benchmark.Filing
import TestRoster.Proofs.Benchmark.Latest

/-!
Recordings one after another.

From where there is no store, either every recording fails, since the files leave no room for a
store, or every recording succeeds. Then the store is a map of two levels: reading it shows the keys
of the recordings, and for each key the latest output of each time.
-/
namespace TestRoster

open FileSystem BenchmarkStore

/-- A call that records a run. -/
structure Recording where
  key : String
  output : String
  /-- The time to record at, if it is not the time of the call. -/
  moment : Option Moment := none
  deriving DecidableEq, Repr

/-- Records runs one after another, whatever comes of each, and tells what came of each. -/
def Session.recordEach (p : Path) (s : Session) : List Recording →
    List (Except Failure String) × Session
  | [] => ([], s)
  | c :: later =>
      let first := (Act.recordRun p c.key c.output c.moment).run s
      let rest := first.2.recordEach p later
      (first.1 :: rest.1, rest.2)

def recordedRuns (clock : Moment) : List Recording → List BenchmarkRun
  | [] => []
  | c :: later =>
      match c.moment with
      | some m => ⟨c.key, m.stamp, c.output⟩ :: recordedRuns clock later
      | none => ⟨c.key, clock.stamp, c.output⟩ :: recordedRuns clock.nextSecond later

/-- What reading a store shows are some runs: their keys in order, and for each key the latest
output of each time, in the order of the written times. -/
structure ShowsRuns (p : Path) (results : List BenchmarkRun) (s : Session) : Prop where
  keys : ∃ ks : List String, (Act.storedKeys p).run s = (.ok (ks.map .str), s) ∧
    ks.Pairwise (· < ·) ∧
    ∀ key, key ∈ ks ↔ ∃ r ∈ results, r.key = key
  runs : ∀ key, ∃ rs, (Act.storedRuns p key).run s = (.ok rs, s) ∧
    rs.Pairwise (fun a b => a.1 < b.1) ∧
    ∀ stamp d, (stamp, d) ∈ rs ↔ ∃ output, latest results key stamp = some output ∧ d = .str output

variable {p : Path} {s : Session} {results more : List BenchmarkRun} {c : Recording}
  {calls before after : List Recording} {key : String}

def Recording.run (c : Recording) (clock : Moment) : BenchmarkRun :=
  ⟨c.key, (c.moment.getD clock).stamp, c.output⟩

def Recording.clock (c : Recording) (clock : Moment) : Moment :=
  if c.moment.isSome then clock else clock.nextSecond

theorem recordedRuns_cons (clock : Moment) (c : Recording) (later : List Recording) :
    recordedRuns clock (c :: later) = c.run clock :: recordedRuns (c.clock clock) later := by
  rw [recordedRuns, Recording.run, Recording.clock]
  cases c.moment <;> rfl

/-- Recordings that are added leave runs under their keys. -/
theorem recordedRuns_append (clock : Moment) (before after : List Recording) :
    ∃ more, recordedRuns clock (before ++ after) = recordedRuns clock before ++ more ∧
      ∀ r ∈ more, ∃ c ∈ after, c.key = r.key := by
  induction before generalizing clock with
  | nil =>
      refine ⟨recordedRuns clock after, rfl, ?_⟩
      induction after generalizing clock with
      | nil => simp [recordedRuns]
      | cons c later ih =>
          rw [recordedRuns_cons]
          exact List.forall_mem_cons.mpr ⟨⟨c, List.mem_cons_self, rfl⟩, fun r member =>
            (ih _ r member).imp fun _ ⟨inside, same⟩ => ⟨List.mem_cons_of_mem _ inside, same⟩⟩
  | cons c before ih =>
      obtain ⟨more, runs, keys⟩ := ih (c.clock clock)
      exact ⟨more, by rw [List.cons_append, recordedRuns_cons, recordedRuns_cons, runs]; rfl, keys⟩

/-- Runs under other keys do not change what is the latest output under a key. -/
theorem latest_append_other (other : ∀ r ∈ more, r.key ≠ key) (stamp : String) :
    latest (results ++ more) key stamp = latest results key stamp := by
  have none : more.reverse.find? (fun r => r.key == key && r.stamp == stamp) = none := by
    refine List.find?_eq_none.mpr fun r member => ?_
    simp [other r (List.mem_reverse.mp member)]
  rw [latest, List.reverse_append, List.find?_append, none, Option.none_or]
  rfl

theorem showsRuns_of_loaded {store : Datum} (read : loaded p s.files = .ok store)
    (sound : IsStore store)
    (holding : Holding results store) : ShowsRuns p results s where
  keys := by
    obtain ⟨ks, keys, order, listed⟩ := keys_eq sound
    refine ⟨ks, ?_, order, fun key => by rw [listed, holding.keys]⟩
    rw [Act.storedKeys, Act.run_bind, Act.readStore_eq, read]
    simp only [Act.run_lift, keys]
    rfl
  runs := fun key => by
    obtain ⟨rs, runs, order, members⟩ := runs_eq sound key
    refine ⟨rs, ?_, order, fun stamp d => ?_⟩
    · rw [Act.storedRuns, Act.run_bind, Act.readStore_eq, read]
      simp only [Act.run_lift, runs]
      rfl
    · rw [members, holding.outputs, Option.map_eq_some_iff]
      simp only [eq_comm]

/-- What is shown of a key depends on the latest outputs under it only. -/
theorem ShowsRuns.runs_congr {s' : Session} (h : ShowsRuns p results s) (h' : ShowsRuns p more s')
    (same : ∀ stamp, latest more key stamp = latest results key stamp) :
    ((Act.storedRuns p key).run s).1 = ((Act.storedRuns p key).run s').1 := by
  obtain ⟨rs, runs, order, members⟩ := h.runs key
  obtain ⟨rs', runs', order', members'⟩ := h'.runs key
  have equal : rs = rs' :=
    eq_of_sorted_by_name order order' fun r => by rw [members, members', same]
  rw [runs, runs', equal]

/-- Reading a store leaves the session as it is. -/
theorem Act.readsOnly_store (p : Path) (key : String) (s : Session) :
    ((storedKeys p).run s).2 = s ∧ ((storedRuns p key).run s).2 = s ∧
      ((storedTable p key).run s).2 = s := by
  refine ⟨?_, ?_, ?_⟩
  all_goals
    first
      | rw [storedKeys, run_bind, readStore_eq]
      | rw [storedRuns, run_bind, readStore_eq]
      | rw [storedTable, run_bind_ok (run_get s), run_bind, readStore_eq]
    cases loaded p s.files with
    | error f => rfl
    | ok store => simp only [run_lift]

theorem Session.timed_stamp (s : Session) (c : Recording) :
    (s.timed c.moment).1.stamp = (c.run s.clock).stamp := by
  rw [Recording.run]
  cases c.moment <;> rfl

theorem Session.timed_clock (s : Session) (c : Recording) :
    (s.timed c.moment).2.clock = c.clock s.clock := by
  rw [Recording.clock]
  cases c.moment <;> rfl

theorem inserted_of_isStore {store : Datum} (sound : IsStore store) (r : BenchmarkRun) :
    ∃ store', insert store r.key r.stamp r.output = .ok store' ∧ IsStore store' ∧
      Inserted r store store' := by
  obtain ⟨store', inserted, sound', keys, outputs⟩ := insert_isStore sound r.key r.stamp r.output
  exact ⟨store', inserted, sound', keys, outputs⟩

/-- Where a store can be read that holds some runs, a recording fails and is blocked, or leaves a
store that holds one run more. -/
theorem record_cases {store : Datum} (read : loaded p s.files = .ok store) (sound : IsStore store)
    (holding : Holding results store) (c : Recording) :
    (∃ f s', (Act.recordRun p c.key c.output c.moment).run s = (.error f, s') ∧ Blocked p s'.files ∧
      ¬ (s.files.Ready p ∧ s.files.Ready (draft p))) ∨
      ∃ s', (Act.recordRun p c.key c.output c.moment).run s = (.ok (c.run s.clock).stamp, s') ∧
        s'.clock = c.clock s.clock ∧ StoreOf p (results ++ [c.run s.clock]) s'.files := by
  obtain ⟨store', inserted, sound', extended⟩ := inserted_of_isStore sound (c.run s.clock)
  have ends := Act.recordRun_ends p c.key c.output c.moment s
  rw [s.timed_stamp c] at ends
  cases ran : (Act.recordRun p c.key c.output c.moment).run s with
  | mk answer s' =>
      rw [ran] at ends
      dsimp only at ends
      rw [← s.timed_files c.moment] at read
      cases ends with
      | unread f failed =>
          rw [read] at failed
          cases failed
      | misused read' fault same failed =>
          cases read.symm.trans same
          cases inserted.symm.trans failed
      | unfiled _ _ fault fs' _ _ unfiled =>
          rw [s.timed_files c.moment] at unfiled
          exact .inl ⟨_, _, rfl, unfiled.blocked, unfiled.not_ready⟩
      | filed _ _ above beside moved same inserted' filed =>
          cases read.symm.trans same
          cases inserted.symm.trans inserted'
          obtain ⟨ready, draft, is_open, file⟩ := filed.stands
          exact .inr ⟨_, rfl, s.timed_clock c, store', ⟨ready, draft, sound', .inr ⟨is_open, file⟩⟩,
            holding.insert extended⟩

/-- Where recording is blocked it fails, and stays blocked. -/
theorem Blocked.record (blocked : Blocked p s.files) (c : Recording) :
    ∃ f s', (Act.recordRun p c.key c.output c.moment).run s = (.error f, s') ∧
      Blocked p s'.files := by
  have ends := Act.recordRun_ends p c.key c.output c.moment s
  rw [← s.timed_files c.moment] at blocked
  cases ran : (Act.recordRun p c.key c.output c.moment).run s with
  | mk answer s' =>
      rw [ran] at ends
      dsimp only at ends
      cases ends with
      | unread f failed => exact ⟨_, _, rfl, blocked⟩
      | misused store fault read failed => exact ⟨_, _, rfl, blocked⟩
      | unfiled store store' fault fs' read inserted unfiled => exact ⟨_, _, rfl, unfiled.blocked⟩
      | filed store store' above beside moved read inserted filed =>
        exact absurd filed blocked.not_filed

theorem Blocked.recordEach (blocked : Blocked p s.files) (calls : List Recording) :
    ∀ a ∈ (s.recordEach p calls).1, ∃ f, a = .error f := by
  induction calls generalizing s with
  | nil => simp [Session.recordEach]
  | cons c later ih =>
      obtain ⟨f, s', ran, blocked'⟩ := blocked.record c
      rw [Session.recordEach, ran]
      exact List.forall_mem_cons.mpr ⟨⟨f, rfl⟩, ih blocked'⟩

theorem StoreOf.loaded (h : StoreOf p results s.files) :
    ∃ store, TestRoster.loaded p s.files = .ok store ∧ IsStore store ∧ Holding results store := by
  obtain ⟨store, stored, holding⟩ := h
  obtain ⟨read, runs, sound, same⟩ := Act.readStore_run (s := s) stored
  rw [Act.readStore_eq] at runs
  refine ⟨read, congrArg Prod.fst runs, sound, fun key => ?_, fun key stamp => ?_⟩
  · rw [same.keys, holding.keys]
  · rw [same.outputs, holding.outputs]

/-- Once there is a store every recording succeeds. -/
theorem StoreOf.recordEach (h : StoreOf p results s.files) (calls : List Recording) :
    (s.recordEach p calls).1 = (recordedRuns s.clock calls).map (fun r => .ok r.stamp) ∧
      StoreOf p (results ++ recordedRuns s.clock calls) (s.recordEach p calls).2.files := by
  induction calls generalizing s results with
  | nil => exact ⟨rfl, by simpa [recordedRuns, Session.recordEach] using h⟩
  | cons c later ih =>
      obtain ⟨store, read, sound, holding⟩ := h.loaded
      rcases record_cases read sound holding c with ⟨f, s', -, -, unready⟩ | ⟨s', ran, clock, h'⟩
      · obtain ⟨_, stored, -⟩ := h
        exact absurd ⟨stored.ready, stored.draft⟩ unready
      · obtain ⟨answers, last⟩ := ih h'
        rw [clock] at answers last
        rw [Session.recordEach, ran, recordedRuns_cons]
        exact ⟨by rw [answers]; rfl, by simpa using last⟩

theorem recordEach_showsRuns (absent : s.files.exists' p = false)
    (h : (s.recordEach p calls).1 = (recordedRuns s.clock calls).map fun r => .ok r.stamp) :
    ShowsRuns p (recordedRuns s.clock calls) (s.recordEach p calls).2 := by
  have read := loaded_of_absent absent
  cases calls with
  | nil => exact showsRuns_of_loaded read isStore_empty holding_nil
  | cons c later =>
      rcases record_cases read isStore_empty holding_nil c
        with ⟨f, s', ran, -⟩ | ⟨s', ran, clock, h'⟩
      · rw [Session.recordEach, ran, recordedRuns_cons] at h
        cases List.head_eq_of_cons_eq h
      · obtain ⟨-, last⟩ := h'.recordEach later
        rw [clock] at last
        rw [Session.recordEach, ran, recordedRuns_cons]
        obtain ⟨store, read, sound, holding⟩ := StoreOf.loaded last
        exact showsRuns_of_loaded read sound holding

/-- From where there is no store, every recording fails or every recording succeeds. -/
theorem recordEach_cases (absent : s.files.exists' p = false) (calls : List Recording) :
    (calls ≠ [] ∧ ¬ (s.files.Ready p ∧ s.files.Ready (draft p)) ∧
        ∀ a ∈ (s.recordEach p calls).1, ∃ f, a = .error f) ∨
      ∀ before after, calls = before ++ after →
        (s.recordEach p before).1 = (recordedRuns s.clock before).map fun r => .ok r.stamp := by
  have read := loaded_of_absent absent
  cases calls with
  | nil =>
      refine .inr fun before after split => ?_
      obtain ⟨rfl, -⟩ := List.nil_eq_append_iff.mp split
      rfl
  | cons c later =>
      -- The first call decides for all: what is in its way stays there, and what it filed can be
      -- filed again.
      rcases record_cases read isStore_empty holding_nil c with
        ⟨f, s', ran, blocked, unready⟩ | ⟨s', ran, clock, stored⟩
      · refine .inl ⟨List.cons_ne_nil c later, unready, ?_⟩
        rw [Session.recordEach, ran]
        exact List.forall_mem_cons.mpr ⟨⟨f, rfl⟩, blocked.recordEach later⟩
      · refine .inr fun before after split => ?_
        cases before with
        | nil => rfl
        | cons first before =>
            cases (List.cons.inj split).1
            obtain ⟨answers, -⟩ := stored.recordEach before
            rw [Session.recordEach, ran, recordedRuns_cons, answers, clock]
            rfl

/-- A store that recordings made from nothing is a map of two levels. Recordings fail only if the
store or its draft cannot be written, and then all of them do. Otherwise each returns its time; the
keys that are shown are those of the recordings, the runs of a key are the latest outputs of its
times, and recordings under other keys do not change them. Reading changes nothing. -/
theorem recordings_make_a_map_of_two_levels (absent : s.files.exists' p = false)
    (calls : List Recording) :
    ((calls ≠ [] ∧ ¬ (s.files.Writable p ∧ s.files.Writable (draft p)) ∧
          ∀ a ∈ (s.recordEach p calls).1, ∃ f, a = .error f) ∨
        (s.recordEach p calls).1 = (recordedRuns s.clock calls).map (fun r => .ok r.stamp) ∧
          ShowsRuns p (recordedRuns s.clock calls) (s.recordEach p calls).2 ∧
          ∀ key before after, calls = before ++ after → (∀ c ∈ after, c.key ≠ key) →
            ((Act.storedRuns p key).run (s.recordEach p calls).2).1 =
              ((Act.storedRuns p key).run (s.recordEach p before).2).1) ∧
      ∀ key s', ((Act.storedKeys p).run s').2 = s' ∧ ((Act.storedRuns p key).run s').2 = s' ∧
        ((Act.storedTable p key).run s').2 = s' := by
  refine ⟨?_, Act.readsOnly_store p⟩
  rcases recordEach_cases absent calls with ⟨some', unready, failed⟩ | succeeded
  · exact .inl ⟨some', fun ⟨writable, writable'⟩ =>
      unready ⟨ready_of_writable writable, ready_of_writable writable'⟩, failed⟩
  · have whole := succeeded calls [] (List.append_nil calls).symm
    have shown := recordEach_showsRuns absent whole
    refine .inr ⟨whole, shown, fun key before after split other => ?_⟩
    have shown' := recordEach_showsRuns absent (succeeded before after split)
    obtain ⟨more, runs, keys⟩ := recordedRuns_append s.clock before after
    rw [← split] at runs
    refine shown.runs_congr shown' fun stamp => ?_
    rw [runs]
    refine (latest_append_other (fun r member => ?_) stamp).symm
    obtain ⟨c, inside, same⟩ := keys r member
    exact same ▸ other c inside

def emptySession : Session where
  files := ⟨.directory [], []⟩
  clock := { year := 2024, month := 1, day := 1, offset := some 0 }
  homes := { own := "/", programDirectory := "/.config/go-test" }
  library := .bundled
  toolDirectory := "/bin"

/-- Three runs, the last one at the time of the first. -/
def threeRecordings : List Recording :=
  [⟨"A", "first", some { year := 2024, month := 2, day := 1 }⟩, ⟨"B", "other", none⟩,
    ⟨"A", "second", some { year := 2024, month := 2, day := 1 }⟩]

theorem three_recordings_make_a_map :
    let p := Path.ofString "b/results.json"
    let last := (emptySession.recordEach p threeRecordings).2
    emptySession.files.exists' p = false ∧
      (∃ ks : List String, (Act.storedKeys p).run last = (.ok (ks.map .str), last) ∧
        ks.Pairwise (· < ·) ∧ "A" ∈ ks ∧ "B" ∈ ks) ∧
      ∃ rs, (Act.storedRuns p "A").run last = (.ok rs, last) ∧ rs.Pairwise (fun a b => a.1 < b.1) ∧
        ("2024-02-01T00:00:00", .str "second") ∈ rs ∧
          ("2024-02-01T00:00:00", .str "first") ∉ rs := by
  intro p last
  have absent : emptySession.files.exists' p = false := by decide +kernel
  have writable : emptySession.files.Writable p := by decide +kernel
  have writable' : emptySession.files.Writable (draft p) := by decide +kernel
  obtain ⟨⟨-, refused, -⟩ | ⟨-, shown, -⟩, -⟩ :=
    recordings_make_a_map_of_two_levels absent threeRecordings
  · exact absurd ⟨writable, writable'⟩ refused
  · obtain ⟨ks, keys, order, listed⟩ := shown.keys
    obtain ⟨rs, runs, order', members⟩ := shown.runs "A"
    have latest :
      latest (recordedRuns emptySession.clock threeRecordings) "A" "2024-02-01T00:00:00" =
        some "second" := by decide +kernel
    refine ⟨absent, ⟨ks, keys, order, (listed "A").mpr ?_, (listed "B").mpr ?_⟩, rs, runs, order',
      (members _ _).mpr ⟨"second", latest, rfl⟩, fun member => ?_⟩
    · exact ⟨_, List.mem_cons_self, rfl⟩
    · exact ⟨_, List.mem_cons_of_mem _ List.mem_cons_self, rfl⟩
    · obtain ⟨output, found, same⟩ := (members _ _).mp member
      rw [latest] at found
      cases found
      exact absurd (Datum.str.inj same) (by decide)

end TestRoster
