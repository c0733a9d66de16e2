import TestRoster.Proofs.Run.Filter

/-!
A filter spells a name letter by letter.

Every component of a filter is a segment of the name between two anchors, with a backslash before
each character that means something else. Without these backslashes the segment is read back, so
names have the same filter only if they differ in nothing but spaces and underscores.
-/
namespace TestRoster

namespace Pattern

/-- Whether every character that means something else has a backslash before it. -/
def allEscaped : List Char → Bool
  | [] => true
  | '\\' :: _ :: cs => allEscaped cs
  | c :: cs => !metacharacters.contains c && allEscaped cs

/-- A text without the backslashes that escape. -/
def unescaped : List Char → List Char
  | [] => []
  | '\\' :: c :: cs => c :: unescaped cs
  | c :: cs => c :: unescaped cs

/-- A character has a backslash before it, or means itself. -/
theorem escapePattern_cons (c : Char) (cs : List Char) :
    escapePattern (c :: cs) = '\\' :: c :: escapePattern cs ∨
      c ∉ metacharacters ∧ escapePattern (c :: cs) = c :: escapePattern cs := by
  by_cases special : c ∈ patternSpecials
  · exact .inl (by simp [escapePattern, escapePatternChar, special])
  · have each : metacharacters ⊆ patternSpecials := by decide
    refine .inr ⟨fun member => special (each member), ?_⟩
    simp [escapePattern, escapePatternChar, special]

theorem ne_backslash_of_plain {c : Char} (plain : c ∉ metacharacters) : c ≠ '\\' := by
  rintro rfl
  exact plain (by decide)

theorem allEscaped_escapePattern (cs : List Char) : allEscaped (escapePattern cs) = true := by
  induction cs with
  | nil => rfl
  | cons c cs ih =>
      rcases escapePattern_cons c cs with escaped | ⟨plain, same⟩
      · rw [escaped, allEscaped]
        exact ih
      · rw [same, allEscaped]
        · simp [plain, ih]
        · exact fun _ _ backslash _ => ne_backslash_of_plain plain backslash

/-- Escapes are taken away again. -/
theorem unescaped_escapePattern (cs : List Char) : unescaped (escapePattern cs) = cs := by
  induction cs with
  | nil => rfl
  | cons c cs ih =>
      rcases escapePattern_cons c cs with escaped | ⟨plain, same⟩
      · rw [escaped, unescaped, ih]
      · rw [same, unescaped, ih]
        exact fun _ _ backslash _ => ne_backslash_of_plain plain backslash

theorem escapePattern_inj {cs ds : List Char} : escapePattern cs = escapePattern ds ↔ cs = ds := by
  refine ⟨fun same => ?_, congrArg escapePattern⟩
  rw [← unescaped_escapePattern cs, same, unescaped_escapePattern]

end Pattern

/-- Two components are the same if their segments differ in spaces and underscores alone. -/
theorem filterPart_inj {segment other : String} :
    filterPart segment = filterPart other ↔ underscored segment = underscored other := by
  rw [← String.toList_inj, toList_filterPart, toList_filterPart, List.cons_inj_right,
    List.append_cancel_right_eq, Pattern.escapePattern_inj]

/-- Underscores for spaces change no place of a slash. -/
theorem splitAtChar_underscored (name : String) :
    splitAtChar '/' (underscored name) = (splitText '/' name).map underscored := by
  have slash : ∀ c : Char, (if c = ' ' then '_' else c) = '/' ↔ c = '/' := by
    intro c
    by_cases space : c = ' '
    · rw [space]
      decide
    · rw [if_neg space]
  rw [underscored, splitAtChar_map slash, splitText, List.map_map]
  refine List.map_congr_left fun part _ => ?_
  rw [Function.comp_apply, underscored, String.toList_ofList]

theorem runFilter_inj {name other : String} :
    runFilter name = runFilter other ↔ underscored name = underscored other := by
  have read : ∀ n, runFilter n = String.intercalate "/" ((splitText '/' n).map filterPart) :=
    fun _ => rfl
  have parts : runFilter name = runFilter other ↔
      (splitText '/' name).map filterPart = (splitText '/' other).map filterPart := by
    constructor
    · intro same
      rw [← splitText_runFilter, same, splitText_runFilter]
    · intro same
      rw [read, same, read]
  have segments : ∀ {ps qs : List String},
      ps.map filterPart = qs.map filterPart ↔ ps.map underscored = qs.map underscored := by
    intro ps qs
    rw [← List.forall₂_eq_eq_eq, ← List.forall₂_eq_eq_eq, List.forall₂_map_left_iff,
      List.forall₂_map_right_iff, List.forall₂_map_left_iff, List.forall₂_map_right_iff]
    simp only [filterPart_inj]
  rw [parts, segments, ← splitAtChar_underscored, ← splitAtChar_underscored, splitAtChar_inj]

/-- A filter is the name itself, spelled so that it means nothing but itself. It has one component
for each segment; a component stands between anchors, escapes every character that means something
else, gives the segment back with an underscore for each space, and matches that text alone. Two
names have the same filter if and only if they are the same with underscores for spaces. -/
theorem filter_spells_the_name (name : String) :
    (splitText '/' (runFilter name)).length = (splitText '/' name).length ∧
    List.Forall₂ (fun component segment =>
        (∃ inside, component.toList = '^' :: (inside ++ ['$']) ∧
          Pattern.allEscaped inside = true ∧
          Pattern.unescaped inside = underscored segment) ∧
        ∀ text, Pattern.Selects component text ↔ text = String.ofList (underscored segment))
      (splitText '/' (runFilter name)) (splitText '/' name) ∧
    ∀ other, runFilter name = runFilter other ↔ underscored name = underscored other := by
  refine ⟨?count, ?spelled, fun _ => runFilter_inj⟩
  case count => rw [splitText_runFilter, List.length_map]
  case spelled =>
    rw [splitText_runFilter, List.forall₂_map_left_iff, List.forall₂_same]
    intro segment _
    refine ⟨⟨_, toList_filterPart segment, Pattern.allEscaped_escapePattern _,
      Pattern.unescaped_escapePattern _⟩, fun text => ?_⟩
    rw [selects_filterPart, ← String.toList_inj, String.toList_ofList]

/-- A segment of a backslash and anchors is spelled with a backslash before each of them. -/
example : runFilter "TestA/a\\^ $" = "^TestA$/^a\\\\\\^_\\$$" := by decide +kernel

end TestRoster
