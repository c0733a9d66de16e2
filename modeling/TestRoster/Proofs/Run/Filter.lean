import Mathlib.Computability.RegularExpressions
import TestRoster.Proofs.Text.Split
import TestRoster.Run.Command

/-!
Which subtests a filter selects.

The testing package turns white space in a subtest's name into underscores and matches each
component of a filter, a regular expression, against one segment of that name. A component of ours
matches one text alone: its segment with an underscore for each space. Other white space stays in
the component, which then does not match.
-/
namespace TestRoster

namespace Pattern

/-- The characters that mean something else than themselves. -/
def metacharacters : List Char :=
  ['\\', '.', '+', '*', '?', '(', ')', '|', '[', ']', '\x7b', '\x7d', '^', '$']

/-- Whether a character with a backslash before it stands for itself: any in ASCII that is neither
a letter nor a digit. -/
def isEscapable (c : Char) : Bool :=
  c.toNat < 0x80 && !c.isAlphanum

/-- What stands before the end of a text, if it is made of characters that stand for themselves. -/
def toEnd? : List Char → Option (RegularExpression Char)
  | [] => none
  | ['$'] => some 1
  | '\\' :: c :: cs => if isEscapable c then (toEnd? cs).map (.char c * ·) else none
  | c :: cs => if metacharacters.contains c then none else (toEnd? cs).map (.char c * ·)

/-- The regular expression of a pattern that is anchored at both ends. -/
def anchored? (pattern : String) : Option (RegularExpression Char) :=
  match pattern.toList with
  | '^' :: rest => toEnd? rest
  | _ => none

/-- That a pattern is anchored at both ends and matches a text between them. -/
def Selects (pattern text : String) : Prop :=
  ∃ r ∈ anchored? pattern, text.toList ∈ r.matches'

def literal : List Char → RegularExpression Char
  | [] => 1
  | c :: cs => .char c * literal cs

theorem mem_literal {cs text : List Char} : text ∈ (literal cs).matches' ↔ text = cs := by
  induction cs generalizing text with
  | nil => exact Language.mem_one text
  | cons c rest ih =>
      rw [literal, RegularExpression.matches'_mul, RegularExpression.matches'_char,
        Language.mem_mul]
      constructor
      · rintro ⟨first, hf, later, hl, rfl⟩
        rw [Set.mem_singleton_iff.mp hf, ih.mp hl]
        rfl
      · rintro rfl
        exact ⟨[c], rfl, rest, ih.mpr rfl, rfl⟩

/-- An escaped text matches itself. -/
theorem toEnd?_escapePattern (cs : List Char) :
    toEnd? (escapePattern cs ++ ['$']) = some (literal cs) := by
  induction cs with
  | nil => rfl
  | cons c rest ih =>
      by_cases special : c ∈ patternSpecials
      · have escapable : isEscapable c := by
          have each : patternSpecials.all isEscapable := by decide
          exact List.all_eq_true.mp each c special
        have shape : escapePattern (c :: rest) ++ ['$'] =
            '\\' :: c :: (escapePattern rest ++ ['$']) := by
          simp [escapePattern, escapePatternChar, special]
        rw [shape, toEnd?, if_pos escapable, ih]
        rfl
      · have plain : c ∉ metacharacters := fun member => by
          have each : metacharacters ⊆ patternSpecials := by decide
          exact special (each member)
        have shape : escapePattern (c :: rest) ++ ['$'] = c :: (escapePattern rest ++ ['$']) := by
          simp [escapePattern, escapePatternChar, special]
        -- neither an end nor a backslash is among the characters that stay as they are
        rw [shape, toEnd?, if_neg (by simpa using plain), ih]
        · rfl
        · rintro rfl
          exact absurd (by decide) plain
        · rintro d ds rfl
          exact absurd (by decide) plain

end Pattern

def underscored (segment : String) : List Char :=
  segment.toList.map fun c => if c = ' ' then '_' else c

theorem toList_filterPart (segment : String) :
    (filterPart segment).toList = '^' :: (escapePattern (underscored segment) ++ ['$']) := by
  rw [filterPart, String.toList_ofList]
  rfl

/-- Escaping adds nothing but backslashes. -/
theorem mem_of_mem_escapePattern {c : Char} {cs : List Char} (h : c ∈ escapePattern cs)
    (other : c ≠ '\\') : c ∈ cs := by
  obtain ⟨d, hd, member⟩ := List.mem_flatMap.mp h
  rw [escapePatternChar] at member
  split at member
  · rcases List.mem_cons.mp member with same | same
    · exact absurd same other
    · exact List.mem_singleton.mp same ▸ hd
  · exact List.mem_singleton.mp member ▸ hd

theorem slash_not_mem_filterPart {segment : String} (h : '/' ∉ segment.toList) :
    '/' ∉ (filterPart segment).toList := by
  have kept : '/' ∉ underscored segment := by
    intro member
    obtain ⟨c, hc, same⟩ := List.mem_map.mp member
    split at same
    · exact absurd same (by decide)
    · exact h (same ▸ hc)
  rw [toList_filterPart]
  intro member
  rcases List.mem_cons.mp member with start | inside
  · exact absurd start (by decide)
  · rcases List.mem_append.mp inside with escaped | stop
    · exact kept (mem_of_mem_escapePattern escaped (by decide))
    · exact absurd (List.mem_singleton.mp stop) (by decide)

/-- The components of a filter are those of the segments. -/
theorem splitText_runFilter (name : String) :
    splitText '/' (runFilter name) = (splitText '/' name).map filterPart := by
  refine splitText_intercalate ?_ (List.forall_mem_map.mpr fun segment member => ?_)
  · simp [splitText, splitAtChar_ne_nil]
  · obtain ⟨part, hp, rfl⟩ := List.mem_map.mp member
    refine slash_not_mem_filterPart ?_
    rw [String.toList_ofList]
    exact not_mem_of_mem_splitAtChar hp

/-- The component of a segment matches one text alone. -/
theorem selects_filterPart {segment text : String} :
    Pattern.Selects (filterPart segment) text ↔ text.toList = underscored segment := by
  have read : Pattern.anchored? (filterPart segment) =
      some (Pattern.literal (underscored segment)) := by
    rw [Pattern.anchored?, toList_filterPart]
    exact Pattern.toEnd?_escapePattern _
  rw [Pattern.Selects, read, ← Pattern.mem_literal]
  simp

def isWhiteSpace (c : Char) : Bool :=
  ['\t', '\n', '\x0b', '\x0c', '\r', ' ', '\u0085', '\u00a0', '\u1680', '\u2028', '\u2029',
    '\u202f', '\u205f', '\u3000'].contains c || ('\u2000' ≤ c && c ≤ '\u200a')

/-- How the testing package names subtests: white space becomes underscores, and other printable
characters stay. What becomes of the rest is left open. -/
structure SubtestNaming where
  printable : Char → Bool
  rename : Char → List Char
  rename_whiteSpace (c : Char) (h : isWhiteSpace c) : rename c = ['_']
  rename_printable (c : Char) (printed : printable c) (h : isWhiteSpace c = false) :
    rename c = [c]

def SpacesOnly (text : String) : Prop :=
  ∀ c ∈ text.toList, isWhiteSpace c → c = ' '

instance : DecidablePred SpacesOnly :=
  fun text => List.decidableBAll _ text.toList

namespace SubtestNaming

variable (go : SubtestNaming)

def segment (text : String) : String :=
  String.ofList (text.toList.flatMap go.rename)

/-- That the characters of a text are printable or white space. -/
def Legible (text : String) : Prop :=
  ∀ c ∈ text.toList, go.printable c ∨ isWhiteSpace c

instance : DecidablePred go.Legible :=
  fun text => List.decidableBAll _ text.toList

variable {go}

theorem toList_segment {text : String} (legible : go.Legible text) :
    (go.segment text).toList = text.toList.map fun c => if isWhiteSpace c then '_' else c := by
  have each : ∀ c ∈ text.toList, go.rename c = [if isWhiteSpace c then '_' else c] := by
    intro c member
    by_cases white : isWhiteSpace c
    · rw [go.rename_whiteSpace c white, if_pos white]
    · have printed := (legible c member).resolve_right white
      rw [go.rename_printable c printed (by simpa using white), if_neg white]
  rw [segment, String.toList_ofList, List.flatMap_congr each, ← List.map_eq_flatMap]

theorem white_eq_underscored {c : Char} :
    (if isWhiteSpace c then '_' else c) = (if c = ' ' then '_' else c) ↔
      (isWhiteSpace c → c = ' ') := by
  by_cases space : c = ' '
  · rw [space]
    decide
  · rw [if_neg space]
    by_cases white : isWhiteSpace c
    · rw [if_pos white]
      constructor
      · intro same
        rw [← same] at white
        exact absurd white (by decide)
      · exact fun only => absurd (only white) space
    · rw [if_neg white]
      exact ⟨fun _ h => absurd h white, fun _ => rfl⟩

end SubtestNaming

/-- A filter has one component for each segment of the name, and a component matches its segment,
as the testing package names it, if and only if all of the segment's white space is spaces. -/
theorem component_selects_segment_iff_white_space_is_spaces (go : SubtestNaming) (name : String)
    (legible : ∀ segment ∈ splitText '/' name, go.Legible segment) :
    List.Forall₂ (fun component segment =>
        Pattern.Selects component (go.segment segment) ↔ SpacesOnly segment)
      (splitText '/' (runFilter name)) (splitText '/' name) := by
  rw [splitText_runFilter, List.forall₂_map_left_iff, List.forall₂_same]
  intro segment member
  rw [selects_filterPart, SubtestNaming.toList_segment (legible segment member), underscored,
    List.map_inj_left]
  exact forall₂_congr fun c _ => SubtestNaming.white_eq_underscored

def asciiNaming : SubtestNaming where
  printable c := '!' ≤ c && c ≤ '~'
  rename c := if isWhiteSpace c then ['_'] else [c]
  rename_whiteSpace c h := if_pos h
  rename_printable c _ h := if_neg (by simp [h])

/-- A subtest whose name has a space and characters that mean something else in expressions. -/
theorem components_select_segments_with_space :
    let name := "TestA/Case 1.(b)"
    (∀ segment ∈ splitText '/' name, asciiNaming.Legible segment) ∧
      (splitText '/' name).map asciiNaming.segment = ["TestA", "Case_1.(b)"] ∧
      splitText '/' (runFilter name) = ["^TestA$", "^Case_1\\.\\(b\\)$"] ∧
      List.Forall₂ (fun component segment =>
          Pattern.Selects component (asciiNaming.segment segment))
        (splitText '/' (runFilter name)) (splitText '/' name) := by
  intro name
  have parts : splitText '/' name = ["TestA", "Case 1.(b)"] := by decide +kernel
  have components : splitText '/' (runFilter name) = ["^TestA$", "^Case_1\\.\\(b\\)$"] := by
    decide +kernel
  have legible : ∀ segment ∈ splitText '/' name, asciiNaming.Legible segment := by
    rw [parts]
    decide +kernel
  have each := component_selects_segment_iff_white_space_is_spaces asciiNaming name legible
  refine ⟨legible, by decide +kernel, components, ?_⟩
  rw [parts, components] at each ⊢
  cases each with
  | cons first rest =>
      cases rest with
      | cons second _ =>
          exact .cons (first.mpr (by decide +kernel)) (.cons (second.mpr (by decide +kernel)) .nil)

/-- A tab stays in the component, but not in the subtest's name. -/
theorem component_with_tab_does_not_select_segment :
    let name := "TestA/a\tb"
    (∀ segment ∈ splitText '/' name, asciiNaming.Legible segment) ∧
      (splitText '/' name).map asciiNaming.segment = ["TestA", "a_b"] ∧
      splitText '/' (runFilter name) = ["^TestA$", "^a\\\tb$"] ∧
      ¬ Pattern.Selects "^a\\\tb$" "a_b" := by
  intro name
  have parts : splitText '/' name = ["TestA", "a\tb"] := by decide +kernel
  have legible : ∀ segment ∈ splitText '/' name, asciiNaming.Legible segment := by
    rw [parts]
    decide +kernel
  have component : "^a\\\tb$" = filterPart "a\tb" := by decide +kernel
  refine ⟨legible, by decide +kernel, by decide +kernel, ?_⟩
  rw [component, selects_filterPart]
  decide +kernel

end TestRoster
