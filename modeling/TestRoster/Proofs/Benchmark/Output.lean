import TestRoster.Proofs.Benchmark.Metric

/-!
What a run's output tells, and what is wrong with it.

The lines are read in order, and in a line the processors, the iterations and then the metrics. The
first of these numbers that is written like one but cannot be converted is the fault of the output:
a count with too many digits, or a metric of a known unit that is no proper numeral.
-/
namespace TestRoster

/-- The fault of the first item of a list that has one. -/
inductive FirstFault {α ε : Type} (bad : α → ε → Prop) : List α → ε → Prop
  | here (x : α) (xs : List α) (e : ε) (fault : bad x e) : FirstFault bad (x :: xs) e
  | behind (x : α) (xs : List α) (e : ε) (sound : ∀ e', ¬ bad x e') (fault : FirstFault bad xs e) :
      FirstFault bad (x :: xs) e

section

variable {α ε : Type} {bad : α → ε → Prop} {x : α} {xs : List α} {e : ε}

theorem not_firstFault_nil (e : ε) : ¬ FirstFault bad [] e :=
  fun fault => nomatch fault

theorem firstFault_cons_of_sound (sound : ∀ e', ¬ bad x e') :
    FirstFault bad (x :: xs) e ↔ FirstFault bad xs e := by
  constructor
  · rintro (⟨_, _, _, fault⟩ | ⟨_, _, _, -, fault⟩)
    · exact absurd fault (sound e)
    · exact fault
  · exact .behind x xs e sound

theorem firstFault_cons_of_fault {e' : ε} (faulty : bad x e') :
    FirstFault bad (x :: xs) e ↔ bad x e := by
  constructor
  · rintro (⟨_, _, _, fault⟩ | ⟨_, _, _, sound, -⟩)
    · exact fault
    · exact absurd faulty (sound e')
  · exact .here x xs e

end

namespace BenchmarkResult

/-- A number with its text, and its unit. -/
abbrev Metric := (List Char × Measure) × List Char

/-- The numbers at the ends of words, each with the next word as its unit. -/
inductive Metrics : List (List Char) → List Metric → Prop
  | none : Metrics [] []
  | last (word : List Char) : Metrics [word] []
  | metric (word unit text : List Char) (n : Measure) (words : List (List Char))
    (metrics : List Metric)
      (number : EndsInNumber word text n) (more : Metrics words metrics) :
      Metrics (word :: unit :: words) (((text, n), unit) :: metrics)
  | other (word next : List Char) (words : List (List Char)) (metrics : List Metric)
      (other : ∀ text n, ¬ EndsInNumber word text n) (more : Metrics (next :: words) metrics) :
      Metrics (word :: next :: words) metrics

def lastOf (metrics : List Metric) (unit : MetricUnit) : Option Binary64 :=
  metrics.reverse.findSome? fun m =>
    if MetricUnit.ofWord? m.2 = some unit then m.1.2.value? else none

def measured (r : BenchmarkResult) (metrics : List Metric) : BenchmarkResult :=
  { r with
    nsPerOp := (lastOf metrics .nsPerOp).or r.nsPerOp
    bytesPerOp := (lastOf metrics .bytesPerOp).or r.bytesPerOp
    allocsPerOp := (lastOf metrics .allocsPerOp).or r.allocsPerOp
    mbPerSecond := (lastOf metrics .mbPerSecond).or r.mbPerSecond }

def processors (procs : List Char) : Option Nat :=
  if procs = [] then none else some (digitsValue procs)

def counted (name procs iterations : List Char) : BenchmarkResult where
  benchmark := String.ofList name
  procs := processors procs
  iterations := digitsValue iterations

inductive LineResult (line : List Char) : BenchmarkResult → Prop
  | mk (name procs iterations rest : List Char) (metrics : List Metric)
      (result : ResultLine (trim line) name procs iterations rest)
      (found : Metrics (words rest) metrics) :
      LineResult line ((counted name procs iterations).measured metrics)

def NoResult (line : List Char) : Prop :=
  ∀ name procs iterations rest, ¬ ResultLine (trim line) name procs iterations rest

/-- What the result lines among lines tell, in order. -/
inductive Results : List (List Char) → List BenchmarkResult → Prop
  | none : Results [] []
  | result (line : List Char) (r : BenchmarkResult) (lines : List (List Char))
      (rs : List BenchmarkResult) (told : LineResult line r) (more : Results lines rs) :
      Results (line :: lines) (r :: rs)
  | other (line : List Char) (lines : List (List Char)) (rs : List BenchmarkResult)
      (other : NoResult line) (more : Results lines rs) : Results (line :: lines) rs

/-- A number of a known unit that is no proper numeral. -/
inductive MetricFault : Metric → Failure → Prop
  | mk (text unit : List Char) (n : Measure) (known : (MetricUnit.ofWord? unit).isSome)
      (improper : ¬ n.Proper) :
      MetricFault ((text, n), unit) (.notAFloat (String.ofList text))

/-- The first of the numbers of a line that cannot be converted. -/
inductive NumberFault (procs iterations : List Char) (metrics : List Metric) : Failure → Prop
  | procs (long : numeralLimit < procs.length) :
      NumberFault procs iterations metrics (.misuse (.numeralTooLong procs.length))
  | iterations (fit : procs.length ≤ numeralLimit) (long : numeralLimit < iterations.length) :
      NumberFault procs iterations metrics (.misuse (.numeralTooLong iterations.length))
  | metric (f : Failure) (fit : procs.length ≤ numeralLimit)
    (fit' : iterations.length ≤ numeralLimit)
      (fault : FirstFault MetricFault metrics f) : NumberFault procs iterations metrics f

/-- What is wrong with a result line. -/
inductive LineFault (line : List Char) (f : Failure) : Prop
  | mk (name procs iterations rest : List Char) (metrics : List Metric)
      (result : ResultLine (trim line) name procs iterations rest)
      (found : Metrics (words rest) metrics) (fault : NumberFault procs iterations metrics f)

variable {r r' : BenchmarkResult} {rs : List BenchmarkResult} {f : Failure} {metrics : List Metric}
  {line name procs iterations rest digits : List Char} {lines : List (List Char)}

/-- The pairs of words are their metrics: a word that ends in no number is passed over. -/
theorem metrics_iff {words : List (List Char)} : Metrics words metrics ↔ pairs words = metrics := by
  constructor
  · intro found
    induction found with
    | none | last => rw [pairs]; simp
    | metric word unit text n words metrics number more ih =>
        rw [pairs, measureAtEnd?_eq_some_iff.mpr number, ← ih]
    | other word next words metrics other more ih =>
        cases number : measureAtEnd? word with
        | some found => exact absurd (measureAtEnd?_eq_some_iff.mp number) (other found.1 found.2)
        | none => rw [pairs, number, ← ih]
  · rintro rfl
    fun_induction pairs words with
    | case1 word unit words n number ih =>
        exact .metric word unit n.1 n.2 words _ (measureAtEnd?_eq_some_iff.mp number) ih
    | case2 word next words number ih =>
        refine .other word next words _ (fun text n here => ?_) ih
        rw [measureAtEnd?_eq_some_iff.mpr here] at number
        cases number
    | case3 words short =>
        rcases words with _ | ⟨word, _ | ⟨next, words⟩⟩
        · exact .none
        · exact .last word
        · exact (short word next words rfl).elim

/-- Metrics are added up to the first one that is at fault. -/
theorem addPairs_eq_error_iff : addPairs r metrics = .error f ↔
    FirstFault MetricFault metrics f := by
  induction metrics generalizing r with
  | nil => exact iff_of_false (nomatch ·) (not_firstFault_nil f)
  | cons m metrics ih =>
      obtain ⟨⟨text, n⟩, unit⟩ := m
      rw [addPairs]
      cases known : MetricUnit.ofWord? unit with
      | none =>
          refine ih.trans (firstFault_cons_of_sound ?_).symm
          rintro _ ⟨_, _, _, known', -⟩
          rw [known] at known'
          cases known'
      | some metric =>
          cases value : n.value? with
          | some x =>
              refine ih.trans (firstFault_cons_of_sound ?_).symm
              rintro _ ⟨_, _, _, -, improper⟩
              exact improper ((value?_isSome_iff n).mp (by rw [value]; rfl))
          | none =>
              have improper : ¬ n.Proper := fun proper => by
                have some' := (value?_isSome_iff n).mpr proper
                rw [value] at some'
                cases some'
              have fault := MetricFault.mk text unit n (by rw [known]; rfl) improper
              rw [firstFault_cons_of_fault fault]
              constructor
              · rintro ⟨⟩
                exact fault
              · rintro ⟨⟩
                rfl

theorem lastOf_cons (m : Metric) (metrics : List Metric) (unit : MetricUnit) :
    lastOf (m :: metrics) unit = (lastOf metrics unit).or
      (if MetricUnit.ofWord? m.2 = some unit then m.1.2.value? else none) := by
  rw [lastOf, List.reverse_cons, List.findSome?_append]
  simp [lastOf]

theorem eq_measured_of_addPairs (added : addPairs r metrics = .ok r') :
    r' = r.measured metrics := by
  induction metrics generalizing r with
  | nil =>
      cases added
      simp [measured, lastOf]
  | cons m metrics ih =>
      obtain ⟨⟨text, n⟩, unit⟩ := m
      rw [addPairs] at added
      cases known : MetricUnit.ofWord? unit with
      | none =>
          rw [known] at added
          rw [ih added]
          simp [measured, lastOf_cons, known]
      | some metric =>
          cases value : n.value? with
          | some x =>
              rw [known, value] at added
              rw [ih added]
              cases metric <;> simp [measured, set, lastOf_cons, known, value]
          | none =>
              rw [known, value] at added
              cases added

theorem digits?_of_digits (some' : digits ≠ []) (number : ∀ c ∈ digits, isDecimalDigit c = true) :
    Numeral.digits? digits = some (digits.map fun c => (decimalDigit? c).getD 0) := by
  have value {c : Char} (digit : isDecimalDigit c = true) :
      decimalDigit? c = some ((decimalDigit? c).getD 0) := by
    obtain ⟨d, told⟩ := Option.isSome_iff_exists.mp digit
    rw [told]
    rfl
  fun_induction Numeral.digits? digits with
  | case1 => exact absurd rfl some'
  | case2 c =>
      rw [value (number c List.mem_cons_self)]
      rfl
  | case3 c rest ih =>
      cases number '_' (List.mem_cons_of_mem c List.mem_cons_self)
  | case4 c rest single joined ih =>
      rw [value (number c List.mem_cons_self),
        ih (fun nil => single nil) fun d member => number d (List.mem_cons_of_mem c member)]
      rfl

theorem count_eq (number : IsNumber digits) :
    count digits =
      if numeralLimit < digits.length then .error (.misuse (.numeralTooLong digits.length))
      else .ok (digitsValue digits) := by
  have value : Numeral.ofDigits (digits.map fun c => (decimalDigit? c).getD 0) =
    digitsValue digits := by
    rw [Numeral.ofDigits, List.foldl_map, digitsValue]
  rw [count, Numeral.ofMagnitude, digits?_of_digits number.1 number.2]
  dsimp only
  rw [List.length_map, value]
  by_cases long : numeralLimit < digits.length
  · rw [if_pos long, if_pos long]
  · rw [if_neg long, if_neg long]

theorem NameParts.procs_cases {word : List Char} (parts : NameParts word name procs) :
    procs = [] ∨ IsNumber procs := by
  cases parts with
  | plain => exact .inl rfl
  | numbered _ _ _ number => exact .inr number

theorem ResultLine.procs_cases (result : ResultLine line name procs iterations rest) :
    procs = [] ∨ IsNumber procs := by
  cases result with
  | mk _ _ _ _ _ _ _ _ parts => exact parts.procs_cases

theorem ResultLine.number (result : ResultLine line name procs iterations rest) :
    IsNumber iterations := by
  cases result with
  | mk _ _ _ _ _ _ _ _ _ _ number => exact number

/-- The counts of a result line are converted first, and then the metrics are added. -/
theorem ofLine_of_resultLine (result : ResultLine (trim line) name procs iterations rest)
    (found : Metrics (words rest) metrics) :
    ofLine line =
      if numeralLimit < procs.length then .error (.misuse (.numeralTooLong procs.length))
      else if numeralLimit < iterations.length then
        .error (.misuse (.numeralTooLong iterations.length))
      else (addPairs (counted name procs iterations) metrics).map some := by
  have added (r : BenchmarkResult) : (do return some (← r.addPairs metrics)) =
      (r.addPairs metrics).map some := by
    cases r.addPairs metrics <;> rfl
  rw [ofLine, parts?_eq_some_iff.mpr result]
  dsimp only
  rw [metrics_iff.mp found, count_eq result.number]
  rcases result.procs_cases with rfl | number
  · rw [if_pos rfl, if_neg (show ¬ numeralLimit < ([] : List Char).length by decide)]
    split
    · rfl
    · exact added (counted name [] iterations)
  · rw [if_neg number.1, count_eq number, counted, processors, if_neg number.1]
    split
    · rfl
    · split
      · rfl
      · exact added _

theorem ofLine_of_noResult (none' : NoResult line) : ofLine line = .ok none := by
  cases parts : parts? (trim line) with
  | none => rw [ofLine, parts]
  | some found =>
      obtain ⟨name, procs, iterations, rest⟩ := found
      exact absurd (parts?_eq_some_iff.mp parts) (none' name procs iterations rest)

theorem lineFault_iff (result : ResultLine (trim line) name procs iterations rest)
    (found : Metrics (words rest) metrics) :
    LineFault line f ↔ NumberFault procs iterations metrics f := by
  constructor
  · rintro ⟨_, _, _, _, _, result', found', fault⟩
    have same := (parts?_eq_some_iff.mpr result).symm.trans (parts?_eq_some_iff.mpr result')
    cases same
    rw [metrics_iff] at found found'
    cases found.symm.trans found'
    exact fault
  · exact .mk name procs iterations rest metrics result found

theorem not_lineFault_of_noResult (none' : NoResult line) : ¬ LineFault line f := by
  rintro ⟨name, procs, iterations, rest, _, result, -, -⟩
  exact none' name procs iterations rest result

theorem resultLine_cases (line : List Char) :
    NoResult line ∨ ∃ name procs iterations rest metrics,
      ResultLine (trim line) name procs iterations rest ∧ Metrics (words rest) metrics := by
  cases parts : parts? (trim line) with
  | none =>
      refine .inl fun name procs iterations rest result => ?_
      rw [parts?_eq_some_iff.mpr result] at parts
      cases parts
  | some found =>
      obtain ⟨name, procs, iterations, rest⟩ := found
      exact .inr ⟨name, procs, iterations, rest, _, parts?_eq_some_iff.mp parts,
        metrics_iff.mpr rfl⟩

theorem ofLine_eq_error_iff : ofLine line = .error f ↔ LineFault line f := by
  rcases resultLine_cases line with none' | ⟨name, procs, iterations, rest, metrics, result, found⟩
  · rw [ofLine_of_noResult none']
    exact iff_of_false (nomatch ·) (not_lineFault_of_noResult none')
  · rw [ofLine_of_resultLine result found, lineFault_iff result found]
    -- The numbers are converted in order, so each fault leaves out the ones before it.
    split
    next long =>
      constructor
      · rintro ⟨⟩
        exact .procs long
      · rintro (_ | ⟨fit, -⟩ | ⟨_, fit, -, -⟩)
        · rfl
        · omega
        · omega
    next fit =>
      split
      next long =>
        constructor
        · rintro ⟨⟩
          exact .iterations (Nat.le_of_not_lt fit) long
        · rintro (long' | _ | ⟨_, -, fit', -⟩)
          · exact absurd long' fit
          · rfl
          · omega
      next fit' =>
        have told : ((counted name procs iterations).addPairs metrics).map some = .error f ↔
            (counted name procs iterations).addPairs metrics = .error f := by
          cases (counted name procs iterations).addPairs metrics <;> simp [Except.map]
        rw [told, addPairs_eq_error_iff]
        constructor
        · exact .metric f (Nat.le_of_not_lt fit) (Nat.le_of_not_lt fit')
        · rintro (long | ⟨-, long⟩ | ⟨_, -, -, fault⟩)
          · exact absurd long fit
          · exact absurd long fit'
          · exact fault

theorem lineResult_of_resultLine {told : Option BenchmarkResult}
    (result : ResultLine (trim line) name procs iterations rest)
      (found : Metrics (words rest) metrics)
    (read : ofLine line = .ok told) : ∃ r, told = some r ∧ LineResult line r := by
  rw [ofLine_of_resultLine result found] at read
  split at read
  · cases read
  · split at read
    · cases read
    · cases added : (counted name procs iterations).addPairs metrics with
      | error f =>
          rw [added] at read
          cases read
      | ok r =>
          rw [added] at read
          cases read
          refine ⟨r, rfl, ?_⟩
          rw [eq_measured_of_addPairs added]
          exact .mk name procs iterations rest metrics result found

theorem lineResult_of_ofLine (read : ofLine line = .ok (some r)) : LineResult line r := by
  rcases resultLine_cases line with none' | ⟨name, procs, iterations, rest, metrics, result, found⟩
  · rw [ofLine_of_noResult none'] at read
    cases read
  · obtain ⟨_, ⟨⟩, told⟩ := lineResult_of_resultLine result found read
    exact told

theorem noResult_of_ofLine (read : ofLine line = .ok none) : NoResult line := by
  rcases resultLine_cases line with none' | ⟨name, procs, iterations, rest, metrics, result, found⟩
  · exact none'
  · obtain ⟨_, ⟨⟩, -⟩ := lineResult_of_resultLine result found read

theorem LineResult.unique (told : LineResult line r) (told' : LineResult line r') : r = r' := by
  obtain ⟨name, procs, iterations, rest, metrics, result, found⟩ := told
  obtain ⟨_, _, _, _, _, result', found'⟩ := told'
  cases (parts?_eq_some_iff.mpr result).symm.trans (parts?_eq_some_iff.mpr result')
  cases (metrics_iff.mp found).symm.trans (metrics_iff.mp found')
  rfl

theorem LineResult.not_noResult (told : LineResult line r) : ¬ NoResult line := by
  obtain ⟨name, procs, iterations, rest, metrics, result, -⟩ := told
  exact fun none' => none' name procs iterations rest result

theorem not_lineFault_of_ok {found : Option BenchmarkResult} (read : ofLine line = .ok found)
    (f : Failure) : ¬ LineFault line f := by
  intro fault
  rw [ofLine_eq_error_iff.mpr fault] at read
  cases read

theorem ofLines_eq_error_iff : ofLines lines = .error f ↔ FirstFault LineFault lines f := by
  induction lines with
  | nil => exact iff_of_false (nomatch ·) (not_firstFault_nil f)
  | cons line lines ih =>
      rw [ofLines]
      cases read : ofLine line with
      | error f' =>
          rw [firstFault_cons_of_fault (ofLine_eq_error_iff.mp read), ← ofLine_eq_error_iff, read]
          exact ⟨congrArg Except.error ∘ Except.error.inj, congrArg Except.error ∘ Except.error.inj⟩
      | ok found =>
          rw [firstFault_cons_of_sound (not_lineFault_of_ok read), ← ih]
          cases found with
          | none => exact Iff.rfl
          | some r => cases ofLines lines <;> simp [bind, Except.bind, pure, Except.pure]

theorem results_of_ofLines (read : ofLines lines = .ok rs) : Results lines rs := by
  induction lines generalizing rs with
  | nil =>
      cases read
      exact .none
  | cons line lines ih =>
      rw [ofLines] at read
      cases here : ofLine line with
      | error f =>
          rw [here] at read
          cases read
      | ok found =>
          rw [here] at read
          cases found with
          | none => exact .other line lines rs (noResult_of_ofLine here) (ih read)
          | some r =>
              cases more : ofLines lines with
              | error f =>
                  rw [more] at read
                  cases read
              | ok rs' =>
                  rw [more] at read
                  cases read
                  exact .result line r lines rs' (lineResult_of_ofLine here) (ih more)

theorem Results.unique {rs' : List BenchmarkResult} (told : Results lines rs)
    (told' : Results lines rs') :
    rs = rs' := by
  induction told generalizing rs' with
  | none =>
      cases told'
      rfl
  | result line r lines rs here more ih =>
      cases told' with
      | result _ r' _ rs' here' more' => rw [here.unique here', ih more']
      | other _ _ _ none' => exact absurd none' here.not_noResult
  | other line lines rs none' more ih =>
      cases told' with
      | result _ r' _ rs' here' more' => exact absurd none' here'.not_noResult
      | other _ _ _ _ more' => exact ih more'

/-- Lines without a fault are told in full. -/
theorem ofLines_eq_ok_iff :
    ofLines lines = .ok rs ↔ (∀ f, ¬ FirstFault LineFault lines f) ∧ Results lines rs := by
  constructor
  · intro read
    refine ⟨fun f fault => ?_, results_of_ofLines read⟩
    rw [ofLines_eq_error_iff.mpr fault] at read
    cases read
  · rintro ⟨sound, results⟩
    cases read : ofLines lines with
    | error f => exact absurd (ofLines_eq_error_iff.mp read) (sound f)
    | ok rs' => rw [results.unique (results_of_ofLines read)]

end BenchmarkResult

end TestRoster
