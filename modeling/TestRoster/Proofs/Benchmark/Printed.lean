import Mathlib.Data.List.Basic
import TestRoster.Proofs.Benchmark.Output
import TestRoster.Proofs.Text.Split

/-!
Printed results are read back.

A page of output has lines that are printed results, and others that do not begin like one. A result
is printed as its name, perhaps with a hyphen and a number of processors, its number of iterations,
and one or more numbers with their units, with blanks between them. A name may hold hyphens and
digits, and a unit may look like a number.
-/
namespace TestRoster

def MetricUnit.text : MetricUnit → String
  | .nsPerOp => "ns/op"
  | .bytesPerOp => "B/op"
  | .allocsPerOp => "allocs/op"
  | .mbPerSecond => "MB/s"

namespace Printed

open BenchmarkResult

/-- Blanks between two parts of a line, none of which ends the line. -/
structure Gap where
  chars : List Char
  given : chars ≠ [] := by decide
  blank : chars.all isBlank = true := by decide
  unbroken : chars.all (!isLineBreak ·) = true := by decide

/-- A count. It has no more digits than can be converted. -/
structure Count where
  digits : List Char
  given : digits ≠ [] := by decide
  decimal : digits.all isDecimalDigit = true := by decide
  short : digits.length ≤ numeralLimit := by decide

/-- The exponent of a number, after its mark and perhaps a sign. -/
structure Exponent where
  mark : Char
  sign : List Char
  negative : Bool
  digits : List Char
  known : mark = 'e' ∨ mark = 'E'
  signed : SignText sign negative
  number : IsNumber digits

def isPlainDigit (c : Char) : Bool :=
  '0' ≤ c && c ≤ '9'

/-- A number: digits, perhaps with a fraction, perhaps with an exponent. -/
structure Number where
  whole : List Char
  fraction : Option (List Char) := none
  exponent : Option Exponent := none
  given : whole ≠ [] := by decide
  plain : (whole ++ fraction.getD []).all isPlainDigit = true := by decide

/-- A number with its unit, which is any word. -/
structure Metric where
  before : Gap
  number : Number
  between : Gap
  unit : List Char
  given : unit ≠ [] := by decide
  word : unit.all (!isBlank ·) = true := by decide

/-- A result. Where no processors are printed, its name does not end in a hyphen and a number. -/
structure Result where
  name : List Char
  procs : Option Count
  before : Gap
  iterations : Count
  metrics : List Metric
  starts : nameStart <+: name
  unspaced : name.all (!isBlank ·) = true := by decide
  plain : procs = none → ∀ front digits, IsNumber digits → name ≠ front ++ '-' :: digits
  paired : metrics ≠ []

inductive Line where
  | result (r : Result)
  | other (chars : List Char) (unbroken : chars.all (!isLineBreak ·) = true)
      (foreign : ¬ nameStart <+: trim chars)

def Exponent.text (e : Exponent) : List Char :=
  e.mark :: (e.sign ++ e.digits)

def Number.mantissa (n : Number) : List Char :=
  n.whole ++ match n.fraction with
    | none => []
    | some digits => '.' :: digits

def Number.text (n : Number) : List Char :=
  n.mantissa ++ match n.exponent with
    | none => []
    | some e => e.text

def Metric.text (m : Metric) : List Char :=
  m.before.chars ++ (m.number.text ++ (m.between.chars ++ m.unit))

def Result.word (r : Result) : List Char :=
  match r.procs with
  | none => r.name
  | some n => r.name ++ '-' :: n.digits

def Result.text (r : Result) : List Char :=
  r.word ++ (r.before.chars ++ (r.iterations.digits ++ r.metrics.flatMap Metric.text))

def Line.text : Line → List Char
  | .result r => r.text
  | .other chars _ _ => chars

def Line.result? : Line → Option Result
  | .result r => some r
  | .other _ _ _ => none

/-- The text of a page: its lines with a line feed between any two of them. -/
def pageText (page : List Line) : String :=
  String.ofList (List.intercalate ['\n'] (page.map Line.text))

def results (page : List Line) : List Result :=
  page.filterMap Line.result?

def Count.value (n : Count) : Nat :=
  digitsValue n.digits

def Exponent.value (e : Exponent) : Int :=
  if e.negative then -(digitsValue e.digits : Int) else digitsValue e.digits

def Number.value (n : Number) : Binary64 :=
  .ofDecimal false (digitsValue (n.whole ++ n.fraction.getD []))
    ((n.exponent.map Exponent.value).getD 0 - (n.fraction.getD []).length)

def Result.last (r : Result) (unit : MetricUnit) : Option Binary64 :=
  ((r.metrics.filter fun m => m.unit = unit.text.toList).getLast?).map fun m => m.number.value

def Result.told (r : Result) : BenchmarkResult where
  benchmark := String.ofList r.name
  procs := r.procs.map Count.value
  iterations := r.iterations.value
  nsPerOp := r.last .nsPerOp
  bytesPerOp := r.last .bytesPerOp
  allocsPerOp := r.last .allocsPerOp
  mbPerSecond := r.last .mbPerSecond

end Printed

theorem MetricUnit.ofWord?_eq_some_iff {word : List Char} {unit : MetricUnit} :
    ofWord? word = some unit ↔ word = unit.text.toList := by
  constructor
  · intro known
    have text : String.ofList word = unit.text := by
      rw [ofWord?] at known
      split at known
      next same => rw [same]; cases known; rfl
      next same => rw [same]; cases known; rfl
      next same => rw [same]; cases known; rfl
      next same => rw [same]; cases known; rfl
      next => cases known
    rw [← text, String.toList_ofList]
  · rintro rfl
    cases unit <;> rfl

namespace BenchmarkResult

/-- The spans between any two blanks, empty ones too. -/
def spans : List Char → List (List Char)
  | [] => [[]]
  | c :: cs =>
      if isBlank c then [] :: spans cs
      else match spans cs with
        | [] => [[c]]
        | span :: rest => (c :: span) :: rest

theorem words_eq (cs : List Char) : words cs = (spans cs).filter (· != []) := by
  have folded : cs.foldr (fun c acc => if isBlank c then [] :: acc else match acc with
      | [] => [[c]]
      | span :: rest => (c :: span) :: rest) [[]] = spans cs := by
    induction cs with
    | nil => rfl
    | cons c cs ih => rw [List.foldr_cons, ih]; rfl
  exact congrArg _ folded

theorem spans_append {word : List Char} (solid : ∀ c ∈ word, isBlank c = false) {b : Char}
    (blank : isBlank b = true) (rest : List Char) :
      spans (word ++ b :: rest) = word :: spans rest := by
  induction word with
  | nil => rw [List.nil_append, spans, if_pos blank]
  | cons c word ih =>
      obtain ⟨first, later⟩ := List.forall_mem_cons.mp solid
      rw [List.cons_append, spans, first, if_neg Bool.false_ne_true, ih later]

theorem spans_of_solid {word : List Char} (solid : ∀ c ∈ word, isBlank c = false) :
    spans word = [word] := by
  induction word with
  | nil => rfl
  | cons c word ih =>
      obtain ⟨first, later⟩ := List.forall_mem_cons.mp solid
      rw [spans, first, if_neg Bool.false_ne_true, ih later]

theorem words_of_blank {gap : List Char} (blank : ∀ c ∈ gap, isBlank c = true) (rest : List Char) :
    words (gap ++ rest) = words rest := by
  induction gap with
  | nil => rfl
  | cons b gap ih =>
      obtain ⟨first, later⟩ := List.forall_mem_cons.mp blank
      rw [List.cons_append, words_eq, spans, if_pos first, List.filter_cons_of_neg (by simp),
        ← words_eq,
        ih later]

theorem words_append {word : List Char} (some' : word ≠ []) (solid : ∀ c ∈ word, isBlank c = false)
    {gap : List Char} (between : IsGap gap) (rest : List Char) :
    words (word ++ (gap ++ rest)) = word :: words rest := by
  obtain ⟨b, gap, rfl⟩ := List.exists_cons_of_ne_nil between.1
  obtain ⟨first, later⟩ := List.forall_mem_cons.mp between.2
  rw [List.cons_append, words_eq, spans_append solid first,
    List.filter_cons_of_pos (by simpa using some'),
    ← words_eq, words_of_blank later]

theorem words_of_solid {word : List Char} (some' : word ≠ [])
    (solid : ∀ c ∈ word, isBlank c = false) :
    words word = [word] := by
  rw [words_eq, spans_of_solid solid, List.filter_cons_of_pos (by simpa using some'),
    List.filter_nil]

end BenchmarkResult

namespace Printed

open BenchmarkResult

theorem inline_of_solid {cs : List Char} (solid : ∀ c ∈ cs, isBlank c = false) :
    ∀ c ∈ cs, isLineBreak c = false := by
  intro c member
  cases ends : isLineBreak c with
  | false => rfl
  | true =>
      have visible := solid c member
      rw [blank_of_lineBreak ends] at visible
      cases visible

theorem digit_of_plain {c : Char} (plain : isPlainDigit c = true) : isDecimalDigit c = true := by
  rw [isPlainDigit, Bool.and_eq_true, decide_eq_true_iff, decide_eq_true_iff] at plain
  have range : 48 ≤ c.toNat ∧ c.toNat ≤ 57 := plain
  rw [isDecimalDigit, decimalDigit?]
  simp [range, show c.toNat < 128 by omega]

theorem solid_of_digits {digits : List Char} (each : ∀ c ∈ digits, isDecimalDigit c = true) :
    ∀ c ∈ digits, isBlank c = false :=
  fun c member => not_blank_of_digit (each c member)

theorem Gap.isGap (g : Gap) : IsGap g.chars :=
  ⟨g.given, List.all_eq_true.mp g.blank⟩

theorem Gap.inline (g : Gap) : ∀ c ∈ g.chars, isLineBreak c = false := by
  simpa using g.unbroken

theorem Count.isNumber (n : Count) : IsNumber n.digits :=
  ⟨n.given, List.all_eq_true.mp n.decimal⟩

theorem Metric.solid (m : Metric) : ∀ c ∈ m.unit, isBlank c = false := by
  simpa using m.word

theorem Result.solid (r : Result) : ∀ c ∈ r.name, isBlank c = false := by
  simpa using r.unspaced

def Number.measure (n : Number) : Measure :=
  match n.exponent with
  | none => { mantissa := n.mantissa }
  | some e => { mantissa := n.mantissa, negative := e.negative, exponent := e.digits }

theorem Number.each (n : Number) : ∀ c ∈ n.whole ++ n.fraction.getD [], isPlainDigit c = true :=
  List.all_eq_true.mp n.plain

theorem Number.mem_mantissa {n : Number} {c : Char} (member : c ∈ n.mantissa) :
    isPlainDigit c = true ∨ c = '.' := by
  have each := n.each
  rw [mantissa] at member
  cases fraction : n.fraction with
  | none =>
      rw [fraction] at member each
      exact .inl (each c (by simpa using member))
  | some digits =>
      rw [fraction] at member each
      simp only [List.mem_append, List.mem_cons, Option.getD_some] at member each
      rcases member with member | rfl | member
      · exact .inl (each c (.inl member))
      · exact .inr rfl
      · exact .inl (each c (.inr member))

theorem Number.isMantissa (n : Number) : IsMantissa n.mantissa := by
  refine ⟨fun none' => n.given (List.append_eq_nil_iff.mp none').1, fun c member => ?_⟩
  rcases n.mem_mantissa member with plain | rfl
  · exact Bool.or_eq_true_iff.mpr (.inr plain)
  · rfl

theorem Number.measureText (n : Number) : MeasureText n.text n.measure := by
  rw [text, measure]
  cases n.exponent with
  | none =>
      rw [List.append_nil]
      exact .plain n.mantissa n.isMantissa
  | some e =>
    exact
      .scaled n.mantissa e.mark e.sign e.negative e.digits n.isMantissa e.known e.signed e.number

theorem Number.endsInNumber (n : Number) : EndsInNumber n.text n.text n.measure :=
  ⟨List.suffix_refl _, n.measureText, fun _ _ ends _ => ends.length_le⟩

theorem solid_of_signText {sign : List Char} {negative : Bool} (signed : SignText sign negative) :
    ∀ c ∈ sign, isBlank c = false := by
  cases signed with
  | none => simp
  | plus => exact List.forall_mem_singleton.mpr rfl
  | minus => exact List.forall_mem_singleton.mpr rfl

theorem Exponent.solid (e : Exponent) : ∀ c ∈ e.text, isBlank c = false := by
  have mark : isBlank e.mark = false := by
    rcases e.known with known | known <;> rw [known] <;> rfl
  rw [text]
  exact List.forall_mem_cons.mpr ⟨mark,
    List.forall_mem_append.mpr ⟨solid_of_signText e.signed, solid_of_digits e.number.2⟩⟩

theorem Number.solid (n : Number) : ∀ c ∈ n.text, isBlank c = false := by
  refine List.forall_mem_append.mpr ⟨fun c member => ?_, ?_⟩
  · rcases n.mem_mantissa member with plain | rfl
    · exact not_blank_of_digit (digit_of_plain plain)
    · rfl
  · cases n.exponent with
    | none => simp
    | some e => exact e.solid

theorem Number.text_ne_nil (n : Number) : n.text ≠ [] :=
  fun none' => n.isMantissa.1 (List.append_eq_nil_iff.mp none').1

theorem Number.head (n : Number) (rest : List Char) :
    ∀ c ∈ (n.text ++ rest).head?, isBlank c = false := by
  obtain ⟨d, text, shape⟩ := List.exists_cons_of_ne_nil n.text_ne_nil
  rw [shape]
  rintro c ⟨⟩
  exact n.solid d (shape ▸ List.mem_cons_self)

/-- A printed number has the value that is printed. -/
theorem Number.value?_measure (n : Number) : n.measure.value? = some n.value := by
  have each := n.each
  have whole : ∀ c ∈ n.whole, (c != '.') = true := by
    intro c member
    refine bne_iff_ne.mpr fun same => ?_
    have plain := each c (List.mem_append_left _ member)
    rw [same] at plain
    cases plain
  have fraction : '.' ∉ n.fraction.getD [] := by
    intro member
    have plain := each '.' (List.mem_append_right _ member)
    cases plain
  have first : n.mantissa.takeWhile (· != '.') = n.whole := by
    refine takeWhile_between whole ?_
    cases n.fraction with
    | none => simp
    | some digits => rintro c ⟨⟩; rfl
  have second : (n.mantissa.drop n.whole.length).drop 1 = n.fraction.getD [] := by
    rw [mantissa, List.drop_left]
    cases n.fraction <;> rfl
  have named : n.measure.mantissa = n.mantissa := by
    rw [measure]
    cases n.exponent <;> rfl
  have exponent : (if n.measure.negative then -(digitsValue n.measure.exponent : Int)
      else digitsValue n.measure.exponent) = (n.exponent.map Exponent.value).getD 0 := by
    rw [measure]
    cases n.exponent with
    | none => rfl
    | some e => rfl
  rw [Measure.value?, named]
  dsimp only
  rw [first, second, if_neg, exponent]
  · rfl
  · simp [fraction, n.given]

def Metric.found (m : Metric) : BenchmarkResult.Metric :=
  ((m.number.text, m.number.measure), m.unit)

variable {ms : List Metric}

theorem words_metrics (m : Metric) (ms : List Metric) :
    words ((m :: ms).flatMap Metric.text) =
      m.number.text :: m.unit :: words (ms.flatMap Metric.text) := by
  have unit : words (m.unit ++ ms.flatMap Metric.text) =
    m.unit :: words (ms.flatMap Metric.text) := by
    cases ms with
    | nil => rw [List.flatMap_nil, List.append_nil, words_of_solid m.given m.solid]; rfl
    | cons next ms =>
        rw [List.flatMap_cons, Metric.text, List.append_assoc,
          words_append m.given m.solid next.before.isGap, words_of_blank next.before.isGap.2]
  rw [List.flatMap_cons, Metric.text, List.append_assoc, List.append_assoc, List.append_assoc,
    words_of_blank m.before.isGap.2,
      words_append m.number.text_ne_nil m.number.solid m.between.isGap, unit]

theorem metrics_words (ms : List Metric) :
    Metrics (words (ms.flatMap Metric.text)) (ms.map Metric.found) := by
  induction ms with
  | nil => exact .none
  | cons m ms ih =>
      rw [words_metrics]
      exact .metric _ _ _ _ _ _ m.number.endsInNumber ih

theorem lastOf_found (r : Result) (unit : MetricUnit) :
    lastOf (r.metrics.map Metric.found) unit = r.last unit := by
  rw [lastOf, Result.last, List.getLast?_filter, ← List.map_reverse]
  induction r.metrics.reverse with
  | nil => rfl
  | cons m ms ih =>
      rw [List.map_cons, List.findSome?_cons, List.find?_cons, ih]
      by_cases same : m.unit = unit.text.toList
      · simp [Metric.found, MetricUnit.ofWord?_eq_some_iff, same, m.number.value?_measure]
      · simp [Metric.found, MetricUnit.ofWord?_eq_some_iff, same]

theorem Result.nameParts (r : Result) :
    NameParts r.word r.name ((r.procs.map Count.digits).getD []) := by
  rw [word]
  cases procs : r.procs with
  | none => exact .plain _ r.starts fun name digits _ number => r.plain procs name digits number
  | some n => exact .numbered _ _ r.starts n.isNumber

theorem Result.word_solid (r : Result) : ∀ c ∈ r.word, isBlank c = false := by
  rw [word]
  cases r.procs with
  | none => exact r.solid
  | some n =>
      exact List.forall_mem_append.mpr ⟨r.solid,
        List.forall_mem_cons.mpr ⟨rfl, solid_of_digits n.isNumber.2⟩⟩

theorem metrics_end (ms : List Metric) :
    ∀ c ∈ (ms.flatMap Metric.text).getLast?, isBlank c = false := by
  induction ms with
  | nil => simp
  | cons m ms ih =>
      intro c last
      rw [List.flatMap_cons, List.getLast?_append] at last
      rcases Option.or_eq_some_iff.mp last with last | ⟨-, last⟩
      · exact ih c last
      · rw [Metric.text, ← List.append_assoc, ← List.append_assoc,
          List.getLast?_append_of_ne_nil _ m.given] at last
        exact m.solid c (List.mem_of_getLast? last)

theorem metrics_inline (ms : List Metric) :
    ∀ c ∈ ms.flatMap Metric.text, isLineBreak c = false := by
  intro c member
  obtain ⟨m, -, inside⟩ := List.mem_flatMap.mp member
  simp only [Metric.text, List.mem_append] at inside
  rcases inside with inside | inside | inside | inside
  · exact m.before.inline c inside
  · exact inline_of_solid m.number.solid c inside
  · exact m.between.inline c inside
  · exact inline_of_solid m.solid c inside

theorem Result.inline (r : Result) : ∀ c ∈ r.text, isLineBreak c = false := by
  refine List.forall_mem_append.mpr ⟨inline_of_solid r.word_solid, ?_⟩
  refine List.forall_mem_append.mpr ⟨r.before.inline, ?_⟩
  exact List.forall_mem_append.mpr
    ⟨inline_of_solid (solid_of_digits r.iterations.isNumber.2), metrics_inline r.metrics⟩

/-- A result starts with a letter and ends with a unit, so trimming leaves it alone. -/
theorem Result.trim_text (r : Result) : trim r.text = r.text := by
  refine trim_eq_self (fun c first => ?_) fun c last => ?_
  · obtain ⟨rest, split⟩ := r.nameParts.starts
    rw [text, ← split] at first
    cases first
    rfl
  · have some' : r.metrics.flatMap Metric.text ≠ [] := by
      obtain ⟨m, ms, shape⟩ := List.exists_cons_of_ne_nil r.paired
      simp [shape, Metric.text, m.given]
    rw [text, ← List.append_assoc, ← List.append_assoc, List.getLast?_append_of_ne_nil _ some']
      at last
    exact metrics_end r.metrics c last

theorem Result.resultLine (r : Result) : ∃ rest,
    ResultLine (trim r.text) r.name ((r.procs.map Count.digits).getD []) r.iterations.digits rest ∧
      Metrics (words rest) (r.metrics.map Metric.found) := by
  obtain ⟨m, ms, shape⟩ := List.exists_cons_of_ne_nil r.paired
  obtain ⟨rest, split⟩ : ∃ rest, rest = m.number.text ++ (m.between.chars ++ m.unit) ++
    ms.flatMap Metric.text :=
    ⟨_, rfl⟩
  have metrics : r.metrics.flatMap Metric.text = m.before.chars ++ rest := by
    rw [shape, List.flatMap_cons, Metric.text, split, List.append_assoc]
  refine ⟨rest, ?_, ?_⟩
  · rw [r.trim_text, text, metrics]
    refine .mk _ _ _ _ _ _ _ r.word_solid r.nameParts r.before.isGap r.iterations.isNumber
      m.before.isGap ?_
    rw [split, List.append_assoc]
    exact m.number.head _
  · rw [← words_of_blank m.before.isGap.2, ← metrics]
    exact metrics_words r.metrics

theorem not_metricFault_found (m : Metric) (f : Failure) : ¬ MetricFault m.found f := by
  rintro ⟨_, _, _, -, improper⟩
  exact improper ((value?_isSome_iff _).mp (by rw [m.number.value?_measure]; rfl))

theorem not_firstFault_found (ms : List Metric) (f : Failure) :
    ¬ FirstFault MetricFault (ms.map Metric.found) f := by
  induction ms with
  | nil => exact not_firstFault_nil f
  | cons m ms ih =>
      rw [List.map_cons, firstFault_cons_of_sound (not_metricFault_found m)]
      exact ih

/-- A printed result is read as what is printed. -/
theorem Result.ofLine_text (r : Result) : ofLine r.text = .ok (some r.told) := by
  obtain ⟨rest, result, found⟩ := r.resultLine
  have fits : ¬ numeralLimit < ((r.procs.map Count.digits).getD []).length := by
    cases r.procs with
    | none => exact Nat.not_lt_zero _
    | some n => exact Nat.not_lt.mpr n.short
  have counts : counted r.name ((r.procs.map Count.digits).getD []) r.iterations.digits =
      { benchmark := String.ofList r.name, procs := r.procs.map Count.value,
        iterations := r.iterations.value } := by
    rw [counted, processors]
    cases r.procs with
    | none => rfl
    | some n => simp [n.given, Count.value]
  rw [ofLine_of_resultLine result found, if_neg fits, if_neg (Nat.not_lt.mpr r.iterations.short),
    counts]
  cases added : addPairs _ (r.metrics.map Metric.found) with
  | error f => exact absurd (addPairs_eq_error_iff.mp added) (not_firstFault_found r.metrics f)
  | ok read =>
      rw [eq_measured_of_addPairs added, BenchmarkResult.measured]
      simp [lastOf_found, Result.told, Except.map]

theorem starts_of_resultLine {line name procs iterations rest : List Char}
    (result : ResultLine line name procs iterations rest) : nameStart <+: line := by
  cases result with
  | mk _ _ _ _ _ _ _ _ parts => exact parts.starts.trans (List.prefix_append _ _)

theorem noResult_of_foreign {chars : List Char} (foreign : ¬ nameStart <+: trim chars) :
    NoResult chars :=
  fun _ _ _ _ result => foreign (starts_of_resultLine result)

theorem Result.text_ne_nil (r : Result) : r.text ≠ [] := by
  intro none'
  have starts := (List.append_eq_nil_iff.mp none').1 ▸ r.nameParts.starts
  exact absurd (List.prefix_nil.mp starts) (by decide)

theorem Line.inline (line : Line) : ∀ c ∈ line.text, isLineBreak c = false := by
  cases line with
  | result r => exact r.inline
  | other chars unbroken _ => simpa [Line.text] using unbroken

theorem Line.ofLine_text (line : Line) : ofLine line.text = .ok (line.result?.map Result.told) := by
  cases line with
  | result r => exact r.ofLine_text
  | other chars _ foreign => exact ofLine_of_noResult (noResult_of_foreign foreign)

/-- The lines of a page are those that were printed, but for an empty last one. -/
theorem ofLines_page (page : List Line) :
    ofLines (breakLines (List.intercalate ['\n'] (page.map Line.text))) =
      .ok ((results page).map Result.told) := by
  induction page with
  | nil => rfl
  | cons line page ih =>
      have here : (results (line :: page)).map Result.told =
          (line.result?.map Result.told).toList ++ (results page).map Result.told := by
        rw [results, List.filterMap_cons]
        cases line.result? <;> rfl
      rw [here]
      cases page with
      | nil =>
          rw [List.map_singleton, List.intercalate_singleton]
          by_cases none' : line.text = []
          · cases line with
            | result r => exact absurd none' r.text_ne_nil
            | other chars unbroken foreign =>
                rw [none']
                rfl
          · rw [breakLines_line line.inline none', ofLines, line.ofLine_text]
            cases line.result? <;> rfl
      | cons next page =>
          rw [List.map_cons] at ih
          rw [List.map_cons, List.map_cons, List.intercalate_cons_cons, List.append_assoc,
            List.singleton_append,
            breakLines_append line.inline, ofLines, line.ofLine_text, ih]
          cases line.result? <;> rfl

theorem ofOutput_pageText (page : List Line) :
    ofOutput (pageText page) = .ok ((results page).map Result.told) := by
  rw [ofOutput, pageText, String.toList_ofList, ofLines_page]

end Printed

end TestRoster
