import TestRoster.Benchmark.Result
import TestRoster.Proofs.Text.Span

/-!
The lines of benchmark output that are results.

A result line starts with a word that begins like the name of a benchmark, has a number behind it,
and something more behind that. The word ends with the number of processors if it ends with a hyphen
and a number.
-/
namespace TestRoster

namespace BenchmarkResult

def IsNumber (digits : List Char) : Prop :=
  digits ≠ [] ∧ ∀ c ∈ digits, isDecimalDigit c = true

def IsGap (gap : List Char) : Prop :=
  gap ≠ [] ∧ ∀ c ∈ gap, isBlank c = true

/-- The name of a benchmark and the number of processors that a word gives. -/
inductive NameParts : List Char → List Char → List Char → Prop
  | plain (word : List Char) (starts : nameStart <+: word)
      (only : ∀ name procs, nameStart <+: name → IsNumber procs → word ≠ name ++ '-' :: procs) :
      NameParts word word []
  | numbered (name procs : List Char) (starts : nameStart <+: name) (number : IsNumber procs) :
      NameParts (name ++ '-' :: procs) name procs

/-- A result line: its name, its number of processors and of iterations, and the rest. -/
inductive ResultLine : List Char → List Char → List Char → List Char → List Char → Prop
  | mk (word name procs gap iterations gap' rest : List Char)
    (solid : ∀ c ∈ word, isBlank c = false)
      (parts : NameParts word name procs) (blank : IsGap gap) (number : IsNumber iterations)
      (blank' : IsGap gap') (more : ∀ c ∈ rest.head?, isBlank c = false) :
      ResultLine (word ++ (gap ++ (iterations ++ (gap' ++ rest)))) name procs iterations rest

variable {line word name procs iterations rest : List Char} {c : Char}

theorem splitProcs_numbered (starts : nameStart <+: name) (number : IsNumber procs) :
    splitProcs (name ++ '-' :: procs) = (name, procs) := by
  have digits : ((name ++ '-' :: procs).reverse.takeWhile isDecimalDigit).reverse = procs := by
    rw [List.reverse_append, List.reverse_cons, List.append_assoc, List.singleton_append,
      takeWhile_between (fun c member => number.2 c (List.mem_reverse.mp member)),
        List.reverse_reverse]
    intro c hyphen
    cases Option.some.inj hyphen
    rfl
  have front : (name ++ '-' :: procs).take ((name ++ '-' :: procs).length - procs.length) =
      name ++ ['-'] := by
    rw [show name ++ '-' :: procs = (name ++ ['-']) ++ procs by simp, List.length_append,
      Nat.add_sub_cancel, List.take_left]
  have long : nameStart.length < (name ++ ['-']).length := by
    rw [List.length_append]
    exact Nat.lt_succ_of_le starts.length_le
  rw [splitProcs]
  simp only [digits, front]
  rw [if_pos ⟨number.1, by simp, long⟩, List.dropLast_concat]

theorem splitProcs_cases (starts : nameStart <+: word) :
    (∃ name procs, nameStart <+: name ∧ IsNumber procs ∧ word = name ++ '-' :: procs) ∨
      splitProcs word = (word, []) := by
  obtain ⟨digits, last⟩ : ∃ digits, digits = (word.reverse.takeWhile isDecimalDigit).reverse :=
    ⟨_, rfl⟩
  obtain ⟨front, first⟩ : ∃ front, front = (word.reverse.dropWhile isDecimalDigit).reverse :=
    ⟨_, rfl⟩
  have whole : word = front ++ digits := by
    rw [last, first, ← List.reverse_append, List.takeWhile_append_dropWhile, List.reverse_reverse]
  have taken : word.take (word.length - digits.length) = front := by
    rw [whole, List.length_append, Nat.add_sub_cancel, List.take_left]
  by_cases numbered : digits ≠ [] ∧ front.getLast? = some '-' ∧ nameStart.length < front.length
  · obtain ⟨some', hyphen, long⟩ := numbered
    obtain ⟨name, split⟩ := List.getLast?_eq_some_iff.mp hyphen
    have digits' : ∀ c ∈ digits, isDecimalDigit c = true := by
      intro c member
      rw [last] at member
      exact of_mem_takeWhile (List.mem_reverse.mp member)
    have whole' : word = name ++ '-' :: digits := by
      rw [whole, split, List.append_assoc, List.singleton_append]
    refine .inl ⟨name, digits, ?_, ⟨some', digits'⟩, whole'⟩
    refine List.prefix_of_prefix_length_le starts ⟨_, whole'.symm⟩ ?_
    rw [split, List.length_append] at long
    exact Nat.le_of_lt_succ long
  · refine .inr ?_
    rw [splitProcs]
    simp only [← last, taken]
    rw [if_neg numbered]

theorem nameParts_iff (starts : nameStart <+: word) :
    NameParts word name procs ↔ splitProcs word = (name, procs) := by
  constructor
  · rintro (⟨_, -, only⟩ | ⟨_, _, starts', number⟩)
    · rcases splitProcs_cases starts with ⟨name, procs, starts', number, same⟩ | plain
      · exact absurd same (only name procs starts' number)
      · exact plain
    · exact splitProcs_numbered starts' number
  · intro parts
    rcases splitProcs_cases starts with ⟨name', procs', starts', number, rfl⟩ | plain
    · rw [splitProcs_numbered starts' number] at parts
      cases parts
      exact .numbered _ _ starts' number
    · rw [plain] at parts
      cases parts
      refine .plain _ starts fun name procs starts' number same => number.1 ?_
      rw [same, splitProcs_numbered starts' number] at plain
      exact congrArg Prod.snd plain

theorem IsGap.head {gap : List Char} (blank : IsGap gap) (cs : List Char) :
    ∀ c ∈ (gap ++ cs).head?, isBlank c = true := by
  obtain ⟨b, gap, rfl⟩ := List.exists_cons_of_ne_nil blank.1
  rintro c ⟨⟩
  exact blank.2 _ List.mem_cons_self

theorem IsNumber.head {digits : List Char} (number : IsNumber digits) (cs : List Char) :
    ∀ c ∈ (digits ++ cs).head?, isDecimalDigit c = true := by
  obtain ⟨d, digits, rfl⟩ := List.exists_cons_of_ne_nil number.1
  rintro c ⟨⟩
  exact number.2 _ List.mem_cons_self

theorem NameParts.starts (parts : NameParts word name procs) : nameStart <+: word := by
  cases parts with
  | plain _ starts => exact starts
  | numbered _ _ starts => exact starts.trans (List.prefix_append _ _)

/-- The parts of a line, step by step: a word, a number behind blanks, and what is behind that. -/
theorem parts?_eq {behind more : List Char} (first : line.takeWhile (!isBlank ·) = word)
    (second : trimStart (line.drop word.length) = behind)
    (third : behind.takeWhile isDecimalDigit = iterations)
    (fourth : behind.drop iterations.length = more) :
    parts? line =
      if !nameStart.isPrefixOf word || iterations = [] || !(more.head?.any isBlank) then none
      else some ((splitProcs word).1, (splitProcs word).2, iterations, trimStart more) := by
  subst first second third fourth
  rfl

theorem parts?_of_resultLine (result : ResultLine line name procs iterations rest) :
    parts? line = some (name, procs, iterations, rest) := by
  obtain ⟨word, _, _, gap, _, gap', _, solid, parts, blank, number, blank', more⟩ := result
  have first : (word ++ (gap ++ (iterations ++ (gap' ++ rest)))).takeWhile (!isBlank ·) = word :=
    takeWhile_between (fun c member => by rw [solid c member]; rfl)
      fun c first => by rw [blank.head _ c first]; rfl
  have second : trimStart ((word ++ (gap ++ (iterations ++ (gap' ++ rest)))).drop word.length) =
      iterations ++ (gap' ++ rest) := by
    rw [List.drop_left, trimStart]
    exact dropWhile_between blank.2 fun c first => not_blank_of_digit (number.head _ c first)
  have third : (iterations ++ (gap' ++ rest)).takeWhile isDecimalDigit = iterations :=
    takeWhile_between number.2 fun c first => not_digit_of_blank (blank'.head rest c first)
  have spaced : (gap' ++ rest).head?.any isBlank = true := by
    obtain ⟨b, gap', rfl⟩ := List.exists_cons_of_ne_nil blank'.1
    exact blank'.2 b List.mem_cons_self
  rw [parts?_eq first second third List.drop_left, if_neg, (nameParts_iff parts.starts).mp parts,
    trimStart, dropWhile_between blank'.2 more]
  rw [List.isPrefixOf_iff_prefix.mpr parts.starts, spaced]
  simpa using number.1

theorem resultLine_of_parts? (parts : parts? line = some (name, procs, iterations, rest)) :
    ResultLine line name procs iterations rest := by
  obtain ⟨word, first⟩ : ∃ word, line.takeWhile (!isBlank ·) = word := ⟨_, rfl⟩
  obtain ⟨after, dropped⟩ : ∃ after, line.dropWhile (!isBlank ·) = after := ⟨_, rfl⟩
  have whole : line = word ++ after := by
    rw [← first, ← dropped, List.takeWhile_append_dropWhile]
  obtain ⟨behind, trimmed⟩ : ∃ behind, after.dropWhile isBlank = behind := ⟨_, rfl⟩
  have whole' : after = after.takeWhile isBlank ++ behind := by
    rw [← trimmed, List.takeWhile_append_dropWhile]
  obtain ⟨more, ended⟩ : ∃ more, behind.dropWhile isDecimalDigit = more := ⟨_, rfl⟩
  have second : trimStart (line.drop word.length) = behind := by
    rw [← first, drop_takeWhile, dropped, trimStart, trimmed]
  rw [parts?_eq first second rfl (by rw [drop_takeWhile, ended])] at parts
  split at parts
  next => cases parts
  next result =>
    simp only [Bool.or_eq_true, not_or, Bool.not_eq_true', Bool.not_eq_false,
      decide_eq_true_iff] at result
    obtain ⟨⟨starts, some'⟩, spaced⟩ := result
    have number : IsNumber (behind.takeWhile isDecimalDigit) := ⟨some', fun _ => of_mem_takeWhile⟩
    have digit : ∀ c ∈ behind.head?, isDecimalDigit c = true := by
      rw [← List.takeWhile_append_dropWhile (p := isDecimalDigit) (l := behind)]
      exact number.head _
    -- The word ends at a blank, since no digit ends it.
    have blank : IsGap (after.takeWhile isBlank) := by
      refine ⟨fun none => ?_, fun _ => of_mem_takeWhile⟩
      rw [none, List.nil_append] at whole'
      obtain ⟨c, tail, start⟩ : ∃ c tail, behind = c :: tail :=
        List.exists_cons_of_ne_nil fun nil => some' (by rw [nil]; rfl)
      have solid := head_dropWhile (!isBlank ·) line c (by rw [dropped, whole', start]; rfl)
      rw [not_blank_of_digit (digit c (by rw [start]; rfl))] at solid
      cases solid
    have blank' : IsGap (more.takeWhile isBlank) := by
      refine ⟨fun none => ?_, fun _ => of_mem_takeWhile⟩
      cases more with
      | nil => cases spaced
      | cons b more =>
          have spaced : isBlank b = true := spaced
          rw [List.takeWhile_cons_of_pos spaced] at none
          cases none
    have solid : ∀ c ∈ word, isBlank c = false := by
      intro c member
      rw [← first] at member
      simpa using of_mem_takeWhile member
    have split : line = word ++ (after.takeWhile isBlank ++
        (behind.takeWhile isDecimalDigit ++ (more.takeWhile isBlank ++ trimStart more))) := by
      rw [trimStart, List.takeWhile_append_dropWhile, ← ended, List.takeWhile_append_dropWhile,
        ← whole', ← whole]
    have parts' := (nameParts_iff (List.isPrefixOf_iff_prefix.mp starts)).mpr (Prod.eta _).symm
    cases parts
    rw [split]
    exact .mk _ _ _ _ _ _ _ solid parts' blank number blank' (head_dropWhile isBlank more)

/-- A line has the parts of a result line exactly if it is one. -/
theorem parts?_eq_some_iff :
    parts? line = some (name, procs, iterations, rest) ↔
      ResultLine line name procs iterations rest :=
  ⟨resultLine_of_parts?, parts?_of_resultLine⟩

end BenchmarkResult

end TestRoster
