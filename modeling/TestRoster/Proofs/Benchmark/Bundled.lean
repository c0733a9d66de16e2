import TestRoster.Benchmark.Bundled
import TestRoster.Proofs.Benchmark.Frames
import TestRoster.Proofs.Number.Rounding

/-!
The operations on tables that come with the program obey the laws.

Only a column of binary numbers changes its cells. A column of counts holds binary numbers only
where a count is missing, and tables below one another only where they keep the column in different
ways.
-/
namespace TestRoster

namespace CellKind

variable {kind : CellKind} {cells : List (Option Nat)}

theorem restates_convert (kind : CellKind) (cell : Cell) :
    cell.Restates (kind = .binary) (kind.convert cell) := by
  cases kind with
  | signed | unsigned | mixed => exact .same cell
  | binary =>
      cases cell with
      | binary x => exact .same _
      | absent => exact .missing rfl
      | whole n =>
          rcases Nat.lt_or_ge n (twoPow 53) with small | large
          · exact .exact n _ rfl (Binary64.isInt_ofInt small)
          · exact .nearest n rfl large

theorem convert_binary (kind : CellKind) (x : Binary64) :
    kind.convert (.binary x) = .binary x := by
  cases kind <;> rfl

/-- The cells that decide are the first ones. -/
theorem decisive_starts (cells : List (Option Nat)) : decisive cells <+: cells := by
  induction cells with
  | nil => exact List.prefix_refl _
  | cons cell cells ih =>
      cases cell with
      | none => exact List.prefix_refl _
      | some n =>
          rw [decisive]
          split
          · exact ⟨cells, rfl⟩
          · exact (List.prefix_cons_inj (some n)).mpr ih

/-- Counts are kept as binary numbers only where one is missing. -/
theorem none_mem_of_ofWholes (kept : ofWholes cells = .binary) : none ∈ cells := by
  rw [ofWholes] at kept
  split at kept
  · cases kept
  · split at kept
    next missing => exact (decisive_starts cells).subset (List.contains_iff_mem.mp missing)
    next =>
      split at kept
      · cases kept
      · split at kept <;> cases kept

/-- Only words with a sign and words without one are joined to binary cells if none was binary. -/
theorem mixes_cons_of_join {k k' : CellKind} {ks : List CellKind}
    (mixes : Mixes (k.join k' :: ks)) : Mixes (k :: k' :: ks) := by
  rw [Mixes] at mixes ⊢
  cases k <;> cases k' <;> grind [CellKind.join]

theorem mixes_of_foldl {k : CellKind} {ks : List CellKind}
    (binary : ks.foldl CellKind.join k = .binary) : Mixes (k :: ks) := by
  induction ks generalizing k with
  | nil => exact .inl (List.mem_singleton.mpr binary.symm)
  | cons k' ks ih => exact mixes_cons_of_join (ih binary)

end CellKind

theorem ResultRow.metric_convert (kinds : Measures CellKind) (row : ResultRow) (unit : MetricUnit) :
    (row.convert kinds).measures.metric unit =
      (kinds.metric unit).convert (row.measures.metric unit) := by
  cases unit <;> rfl

/-- Metrics are binary numbers, so no column changes them. -/
theorem BenchmarkResult.metric_convert_row (kinds : Measures CellKind) (r : BenchmarkResult)
    (unit : MetricUnit) :
    (r.row.convert kinds).measures.metric unit = .binary ((r.metric unit).getD .nan) := by
  cases unit <;> exact CellKind.convert_binary _ _

theorem ResultTable.tabled_ofResults (rs : List BenchmarkResult) :
    List.Forall₂ (BenchmarkResult.Tabled (∃ r ∈ rs, r.procs = none)) rs (ofResults rs).rows := by
  rw [ofResults, List.forall₂_map_right_iff, List.forall₂_same]
  intro r _
  refine ⟨rfl, ?_, ?_, r.metric_convert_row _⟩
  · refine (CellKind.restates_convert _ _).mono fun rounds => ?_
    exact List.mem_map.mp (CellKind.none_mem_of_ofWholes rounds)
  · refine (CellKind.restates_convert _ _).eq fun rounds => ?_
    have missing := CellKind.none_mem_of_ofWholes rounds
    simp at missing

namespace RunTable

variable {first : Measures CellKind} {rest tables : List RunTable}

/-- A column of some tables holds binary numbers only if the tables mix how they keep it. -/
theorem mixes_of_stack (some' : tables ≠ []) (column : Measures CellKind → CellKind)
    (joins : ∀ a b : Measures CellKind,
      column (a.zipWith CellKind.join b) = (column a).join (column b))
    (binary : column (stack tables).kinds = .binary) :
    Mixes (tables.map fun t => column t.kinds) := by
  cases tables with
  | nil => exact absurd rfl some'
  | cons t rest =>
      refine CellKind.mixes_of_foldl (Eq.trans ?_ binary)
      rw [stack, joinKinds, List.foldl_map]
      exact List.foldl_hom column fun a b => (joins a b.kinds).symm

theorem rows_stack (tables : List RunTable) :
    (stack tables).rows = (tables.flatMap rows).map fun r =>
      { r with row := r.row.convert (stack tables).kinds } := by
  cases tables <;> rfl

theorem stacked_stack (tables : List RunTable) (some' : tables ≠ []) :
    List.Forall₂ (StampedRow.Stacked tables) (tables.flatMap rows) (stack tables).rows := by
  rw [rows_stack, List.forall₂_map_right_iff, List.forall₂_same]
  intro r _
  refine ⟨rfl, rfl, ?_, ?_, fun unit => ?_⟩
  · exact (CellKind.restates_convert _ _).mono (mixes_of_stack some' Measures.procs fun _ _ => rfl)
  · exact (CellKind.restates_convert _ _).mono
      (mixes_of_stack some' Measures.iterations fun _ _ => rfl)
  · rw [ResultRow.metric_convert]
    refine (CellKind.restates_convert _ _).mono
      (mixes_of_stack some' (Measures.metric · unit) fun _ _ => ?_)
    cases unit <;> rfl

end RunTable

namespace Binary64

theorem lt_irrefl (x : Binary64) : x.lt x = false := by
  cases x with
  | finite s m e => exact decide_eq_false (Int.lt_irrefl _)
  | infinite s => cases s <;> rfl
  | nan => rfl

theorem lt_trans (x y z : Binary64) (first : x.lt y = true) (second : y.lt z = true) :
    x.lt z = true := by
  cases x <;> cases y <;> cases z <;> simp_all [lt]
  exact Int.lt_trans first second

end Binary64

section Extreme

variable {before : Binary64 → Binary64 → Bool}
  (trans : ∀ x y z, before x y = true → before y z = true → before x z = true)
  (irrefl : ∀ x, before x x = false)
include trans irrefl

theorem isExtreme_foldl {seen : List Binary64} {x : Binary64} (member : x ∈ seen)
    (first : ∀ y ∈ seen, before y x = false) (xs : List Binary64) :
    IsExtreme before (seen ++ xs)
      (some (xs.foldl (fun best y => if before y best then y else best) x)) := by
  induction xs generalizing seen x with
  | nil =>
      rw [List.append_nil]
      exact ⟨member, first⟩
  | cons y xs ih =>
      rw [List.foldl_cons, List.append_cons]
      split
      next better =>
        refine ih (List.mem_append_right _ (List.mem_singleton_self y)) fun z among => ?_
        rcases List.mem_append.mp among with old | new
        · exact Bool.eq_false_of_not_eq_true fun worse => by
            have := trans z y x worse better
            rw [first z old] at this
            cases this
        · rw [List.mem_singleton.mp new]
          exact irrefl y
      next other =>
        refine ih (List.mem_append_left _ member) fun z among => ?_
        rcases List.mem_append.mp among with old | new
        · exact first z old
        · rw [List.mem_singleton.mp new]
          exact Bool.eq_false_of_not_eq_true other

theorem isExtreme_extreme (xs : List Binary64) : IsExtreme before xs (extreme before xs) := by
  cases xs with
  | nil => rfl
  | cons x xs =>
      exact isExtreme_foldl trans irrefl (List.mem_singleton_self x)
        (List.forall_mem_singleton.mpr (irrefl x)) xs

end Extreme

theorem Tally.tells_ofCells (kind : CellKind) (xs : List Binary64) :
    (ofCells kind (xs.map .binary)).Tells (xs.filter fun x => !x.isNan) := by
  rw [ofCells, Cell.numbers_binary]
  exact ⟨rfl, isExtreme_extreme Binary64.lt_trans Binary64.lt_irrefl _,
    isExtreme_extreme (fun x y z first second => Binary64.lt_trans z y x second first)
      Binary64.lt_irrefl _⟩

theorem Frames.lawful_bundled : Frames.bundled.Lawful where
  table := ResultTable.tabled_ofResults
  stamp _ _ := ⟨rfl, rfl⟩
  stack := RunTable.stacked_stack
  names t := by
    rw [Frames.bundled]
    dsimp only
    rw [RunTable.groups, List.map_map]
    exact List.map_id' _
  members t group member := by
    obtain ⟨name, -, rfl⟩ := List.mem_map.mp member
    rfl
  tally := Tally.tells_ofCells

end TestRoster
