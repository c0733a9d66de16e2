import TestRoster.Proofs.Benchmark.Sequence
import TestRoster.Proofs.Time.Stamp

/-!
Which runs are listed oldest first.

The runs of a key are listed in the order of what their times show. That is the order of their
instants where all times have the same distance to universal time. Where the distances differ, a run
can be listed before an older one.
-/
namespace TestRoster

open FileSystem BenchmarkStore

def recordedTimes (clock : Moment) : List Recording → List (String × Moment)
  | [] => []
  | c :: later => (c.key, c.moment.getD clock) :: recordedTimes (c.clock clock) later

/-- Two moments are in step: the one that shows an earlier time is not the later one, and if both
show the same time they are not ahead of universal time by different distances. -/
structure InStep (m n : Moment) : Prop where
  shown : m.shown < n.shown → m.instant ≤ n.instant
  ahead : m.shown = n.shown → 0 ≤ m.distance → 0 ≤ n.distance → m.distance = n.distance

variable {p : Path} {s : Session} {results : List BenchmarkRun} {calls : List Recording}
  {key : String}
  {m n : Moment} {ms : List Moment}

theorem latest_isSome_iff (results : List BenchmarkRun) (key stamp : String) :
    (∃ output, latest results key stamp = some output) ↔
      ∃ r ∈ results, r.key = key ∧ r.stamp = stamp := by
  rw [latest, ← Option.isSome_iff_exists, Option.isSome_map, List.find?_isSome]
  simp

/-- Runs are stored under the written forms of their times. -/
theorem recordedRuns_stamps (clock : Moment) (calls : List Recording) :
    (recordedRuns clock calls).map (fun r => (r.key, r.stamp)) =
      (recordedTimes clock calls).map fun t => (t.1, t.2.stamp) := by
  induction calls generalizing clock with
  | nil => rfl
  | cons c later ih =>
      rw [recordedRuns_cons, recordedTimes, List.map_cons, List.map_cons, ih]
      rfl

theorem stamp_recorded_iff (clock : Moment) (calls : List Recording) (key stamp : String) :
    (∃ r ∈ recordedRuns clock calls, r.key = key ∧ r.stamp = stamp) ↔
      ∃ m, (key, m) ∈ recordedTimes clock calls ∧ m.stamp = stamp := by
  have stamps : (key, stamp) ∈ (recordedRuns clock calls).map (fun r => (r.key, r.stamp)) ↔
      (key, stamp) ∈ (recordedTimes clock calls).map fun t => (t.1, t.2.stamp) := by
    rw [recordedRuns_stamps]
  simpa using stamps

/-- Texts that are each the written form of a moment are the written forms of moments. -/
theorem moments_of_stamps {P : Moment → Prop} {stamps : List String}
    (each : ∀ stamp ∈ stamps, ∃ m, P m ∧ m.stamp = stamp) :
    ∃ ms : List Moment, ms.map Moment.stamp = stamps ∧ ∀ m ∈ ms, P m := by
  induction stamps with
  | nil => exact ⟨[], rfl, by simp⟩
  | cons stamp stamps ih =>
      obtain ⟨⟨m, holds, rfl⟩, others⟩ := List.forall_mem_cons.mp each
      obtain ⟨ms, rfl, all⟩ := ih others
      exact ⟨m :: ms, rfl, List.forall_mem_cons.mpr ⟨holds, all⟩⟩

theorem instant_le_of_inStep (inStep : InStep m n) (before : m.ListedBefore n) :
    m.instant ≤ n.instant := by
  rcases before with earlier | ⟨same, offsets⟩
  · exact inStep.shown earlier
  · have ahead := inStep.ahead same
    rw [Moment.instant, Moment.instant, same]
    rw [Moment.OffsetBefore] at offsets
    omega

theorem listedBefore_asymm (before : m.ListedBefore n) : ¬ n.ListedBefore m := by
  rw [Moment.ListedBefore, Moment.OffsetBefore] at before ⊢
  omega

/-- Two moments that are listed oldest first, in whichever order, are in step. -/
theorem inStep_of_instant_le (first : m.ListedBefore n → m.instant ≤ n.instant)
    (second : n.ListedBefore m → n.instant ≤ m.instant) : InStep m n where
  shown := fun earlier => first (.inl earlier)
  ahead := fun same ahead ahead' => by
    rcases Int.lt_trichotomy m.distance n.distance with less | equal | more
    · have le := first (.inr ⟨same, .inl ⟨ahead, .inr less⟩⟩)
      rw [Moment.instant, Moment.instant, same] at le
      omega
    · exact equal
    · have le := second (.inr ⟨same.symm, .inl ⟨ahead', .inr more⟩⟩)
      rw [Moment.instant, Moment.instant, same] at le
      omega

theorem inStep_of_distance (same : m.distance = n.distance) : InStep m n where
  shown := fun earlier => by
    rw [Moment.instant, Moment.instant, same]
    omega
  ahead := fun _ _ _ => same

/-- Moments are listed oldest first exactly where all of them are in step. -/
theorem pairwise_instant_iff (order : ms.Pairwise Moment.ListedBefore) :
    ms.Pairwise (fun m n => m.instant ≤ n.instant) ↔ ∀ m ∈ ms, ∀ n ∈ ms, InStep m n := by
  constructor
  · intro oldest
    -- Only one order of two moments is listed, so nothing is asked of the other.
    have both : ms.Pairwise fun m n => InStep m n ∧ InStep n m := by
      refine (order.and oldest).imp fun {m n} ⟨before, le⟩ => ?_
      have never (after : n.ListedBefore m) : n.instant ≤ m.instant :=
        absurd after (listedBefore_asymm before)
      exact ⟨inStep_of_instant_le (fun _ => le) never, inStep_of_instant_le never fun _ => le⟩
    have either : Std.Symm fun m n => InStep m n ∧ InStep n m := ⟨fun _ _ h => h.symm⟩
    have same (m : Moment) : InStep m m := inStep_of_distance rfl
    exact fun m first n second =>
      (both.forall_of_forall (fun m _ => ⟨same m, same m⟩) first second).1
  · intro inStep
    exact order.imp_of_mem fun first second before =>
      instant_le_of_inStep (inStep _ first _ second) before

/-- The runs of a key that are shown are listed in the order of what their times show. -/
theorem ShowsRuns.listed {clock : Moment} (shown : ShowsRuns p (recordedRuns clock calls) s)
    (timed : ∀ t ∈ recordedTimes clock calls, t.2.Valid ∧ t.2.offset.isSome) (key : String) :
    ∃ rs : List (String × Datum), ∃ ms : List Moment,
      (Act.storedRuns p key).run s = (.ok rs, s) ∧ rs.map Prod.fst = ms.map Moment.stamp ∧
      (∀ m, m ∈ ms ↔ (key, m) ∈ recordedTimes clock calls) ∧ ms.Pairwise Moment.ListedBefore := by
  obtain ⟨rs, runs, order, members⟩ := shown.runs key
  have stamps (stamp : String) : stamp ∈ rs.map Prod.fst ↔
      ∃ m, (key, m) ∈ recordedTimes clock calls ∧ m.stamp = stamp := by
    rw [← stamp_recorded_iff, ← latest_isSome_iff]
    simp [members]
  obtain ⟨ms, same, all⟩ := moments_of_stamps fun stamp member => (stamps stamp).mp member
  have zone {m : Moment} (recorded : (key, m) ∈ recordedTimes clock calls) :
      m.Valid ∧ ∃ o, m.offset = some o :=
    ⟨(timed _ recorded).1, Option.isSome_iff_exists.mp (timed _ recorded).2⟩
  have sorted : ms.Pairwise fun m n => m.stamp < n.stamp := by
    have order' : (rs.map Prod.fst).Pairwise (· < ·) := List.pairwise_map.mpr order
    rw [← same] at order'
    exact List.pairwise_map.mp order'
  refine ⟨rs, ms, runs, same.symm, fun m => ⟨all m, fun recorded => ?_⟩, ?_⟩
  · have listed := (stamps m.stamp).mpr ⟨m, recorded, rfl⟩
    rw [← same] at listed
    obtain ⟨n, member, stamp⟩ := List.mem_map.mp listed
    obtain ⟨valid, o, offset⟩ := zone recorded
    obtain ⟨valid', o', offset'⟩ := zone (all n member)
    rwa [← Moment.eq_of_stamp valid' valid offset' offset stamp]
  · refine sorted.imp_of_mem fun {m n} first second less => ?_
    obtain ⟨valid, o, offset⟩ := zone (all m first)
    obtain ⟨valid', o', offset'⟩ := zone (all n second)
    exact (Moment.stamp_lt_iff valid valid' offset offset').mp less

/-- Runs are listed oldest first where their times are in step, and nowhere else. Recorded from
nothing, the runs of a key are those of its recorded times, each once, in the order of what the
times show and then of the distances to universal time. If all distances are the same, the oldest is
always first. -/
theorem runs_are_oldest_first_iff_in_step (absent : s.files.exists' p = false)
    (calls : List Recording)
    (timed : ∀ t ∈ recordedTimes s.clock calls, t.2.Valid ∧ t.2.offset.isSome) (key : String) :
    (calls ≠ [] ∧ ¬ (s.files.Writable p ∧ s.files.Writable (draft p)) ∧
        ∀ a ∈ (s.recordEach p calls).1, ∃ f, a = .error f) ∨
      ∃ rs : List (String × Datum), ∃ ms : List Moment,
        (Act.storedRuns p key).run (s.recordEach p calls).2 = (.ok rs, (s.recordEach p calls).2) ∧
        rs.map Prod.fst = ms.map Moment.stamp ∧
        (∀ m, m ∈ ms ↔ (key, m) ∈ recordedTimes s.clock calls) ∧
        ms.Pairwise Moment.ListedBefore ∧
        (ms.Pairwise (fun m n => m.instant ≤ n.instant) ↔ ∀ m ∈ ms, ∀ n ∈ ms, InStep m n) ∧
        ((∀ m ∈ ms, ∀ n ∈ ms, m.distance = n.distance) →
          ms.Pairwise fun m n => m.instant ≤ n.instant) := by
  rcases recordEach_cases absent calls with ⟨some', unready, failed⟩ | succeeded
  · exact .inl ⟨some', fun ⟨writable, writable'⟩ =>
      unready ⟨ready_of_writable writable, ready_of_writable writable'⟩, failed⟩
  · have shown := recordEach_showsRuns absent (succeeded calls [] (List.append_nil calls).symm)
    obtain ⟨rs, ms, runs, stamps, members, order⟩ := shown.listed timed key
    refine .inr ⟨rs, ms, runs, stamps, members, order, pairwise_instant_iff order, fun same => ?_⟩
    exact (pairwise_instant_iff order).mpr fun m first n second =>
      inStep_of_distance (same m first n second)

/-- Two runs at times two hours ahead of universal time, the later one first, and one under another
key. -/
def aheadRecordings : List Recording :=
  [⟨"B", "x",
      some { year := 2024, month := 1, day := 1, microsecond := 1, offset := some 7200000000 }⟩,
    ⟨"A", "other", none⟩,
    ⟨"B", "y", some { year := 2024, month := 1, day := 1, offset := some 7200000000 }⟩]

theorem ahead_recordings_are_listed_oldest_first :
    let p := Path.ofString "b/results.json"
    let last := (emptySession.recordEach p aheadRecordings).2
    (∀ t ∈ recordedTimes emptySession.clock aheadRecordings, t.2.Valid ∧ t.2.offset.isSome) ∧
      ∃ rs : List (String × Datum), ∃ ms : List Moment,
        (Act.storedRuns p "B").run last = (.ok rs, last) ∧
        rs.map Prod.fst = ms.map Moment.stamp ∧ ms.Pairwise (fun m n => m.instant ≤ n.instant) ∧
        ∀ m, m ∈ ms ↔ ("B", m) ∈ recordedTimes emptySession.clock aheadRecordings := by
  intro p last
  have absent : emptySession.files.exists' p = false := by decide +kernel
  have writable : emptySession.files.Writable p := by decide +kernel
  have writable' : emptySession.files.Writable (draft p) := by decide +kernel
  have timed : ∀ t ∈ recordedTimes emptySession.clock aheadRecordings, t.2.Valid ∧
    t.2.offset.isSome := by
    decide +kernel
  obtain ⟨-, refused, -⟩ | ⟨rs, ms, runs, stamps, members, -, -, oldest⟩ :=
    runs_are_oldest_first_iff_in_step absent aheadRecordings timed "B"
  · exact absurd ⟨writable, writable'⟩ refused
  · have ahead : ∀ m ∈ ms, m.distance = 7200000000 := by
      intro m member
      have recorded := (members m).mp member
      simp [recordedTimes, aheadRecordings] at recorded
      rcases recorded with rfl | rfl <;> rfl
    refine ⟨timed, rs, ms, runs, stamps, oldest fun m first n second => ?_, members⟩
    rw [ahead m first, ahead n second]

/-- A run at one o'clock, two hours ahead of universal time, and one at half past twelve of
universal time, which is later. -/
def crossedRecordings : List Recording :=
  [⟨"B", "x", some { year := 2024, month := 1, day := 1, hour := 1, offset := some 7200000000 }⟩,
    ⟨"B", "y", some { year := 2024, month := 1, day := 1, minute := 30, offset := some 0 }⟩]

/-- The older of two runs is listed last. -/
theorem older_run_is_listed_last :
    let p := Path.ofString "b/results.json"
    let older : Moment :=
      { year := 2024, month := 1, day := 1, hour := 1, offset := some 7200000000 }
    let newer : Moment := { year := 2024, month := 1, day := 1, minute := 30, offset := some 0 }
    let last := (emptySession.recordEach p crossedRecordings).2
    (older.Valid ∧ newer.Valid) ∧ older.instant < newer.instant ∧
      (Act.storedRuns p "B").run last =
        (.ok [(newer.stamp, .str "y"), (older.stamp, .str "x")], last) := by
  intro p older newer last
  have absent : emptySession.files.exists' p = false := by decide +kernel
  have recorded : recordedRuns emptySession.clock crossedRecordings =
      [⟨"B", older.stamp, "x"⟩, ⟨"B", newer.stamp, "y"⟩] := rfl
  have apart : newer.stamp < older.stamp := by decide +kernel
  have writable : emptySession.files.Writable p := by decide +kernel
  have writable' : emptySession.files.Writable (draft p) := by decide +kernel
  have succeeded := (recordEach_cases absent crossedRecordings).resolve_left fun ⟨_, unready, _⟩ =>
    unready ⟨ready_of_writable writable, ready_of_writable writable'⟩
  have answers := succeeded crossedRecordings [] (List.append_nil _).symm
  obtain ⟨rs, runs, order, members⟩ := (recordEach_showsRuns absent answers).runs "B"
  have listed : rs = [(newer.stamp, .str "y"), (older.stamp, .str "x")] := by
    have sorted : [(newer.stamp, Datum.str "y"), (older.stamp, .str "x")].Pairwise fun a b =>
      a.1 < b.1 :=
      List.pairwise_pair.mpr apart
    refine eq_of_sorted_by_name order sorted fun ⟨stamp, d⟩ => ?_
    have first := latest_append [] ⟨"B", older.stamp, "x"⟩ "B" stamp
    have second := latest_append [⟨"B", older.stamp, "x"⟩] ⟨"B", newer.stamp, "y"⟩ "B" stamp
    rw [List.nil_append] at first
    rw [members, recorded, ← List.singleton_append, second, first]
    have different := String.ne_of_lt apart
    by_cases late : stamp = newer.stamp
    · simp [late, different, eq_comm]
    · by_cases early : stamp = older.stamp
      · simp [early, different.symm, different, eq_comm]
      · simp [late, early, latest]
  exact ⟨by decide +kernel, by decide +kernel, listed ▸ runs⟩

end TestRoster
