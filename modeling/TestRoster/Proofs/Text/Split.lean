import TestRoster.Text.Split

/-!
Splitting a text undoes joining it.
-/
namespace TestRoster

theorem splitAtChar_ne_nil (separator : Char) (cs : List Char) :
    splitAtChar separator cs ≠ [] := by
  induction cs with
  | nil => simp [splitAtChar]
  | cons c rest ih =>
      rw [splitAtChar]
      split
      · simp
      · split <;> simp

theorem not_mem_of_mem_splitAtChar {separator : Char} {cs part : List Char}
    (h : part ∈ splitAtChar separator cs) : separator ∉ part := by
  induction cs generalizing part with
  | nil =>
      rw [List.mem_singleton.mp h]
      exact List.not_mem_nil
  | cons c rest ih =>
      rw [splitAtChar] at h
      split at h
      next =>
        rcases List.mem_cons.mp h with rfl | later
        · exact List.not_mem_nil
        · exact ih later
      next other =>
        split at h
        next nothing => exact absurd nothing (splitAtChar_ne_nil separator rest)
        next first parts parted =>
          rw [parted] at ih
          rcases List.mem_cons.mp h with rfl | later
          · intro member
            rcases List.mem_cons.mp member with same | inside
            · exact other same.symm
            · exact ih List.mem_cons_self inside
          · exact ih (List.mem_cons_of_mem _ later)

theorem splitAtChar_of_not_mem {separator : Char} {part : List Char} (h : separator ∉ part) :
    splitAtChar separator part = [part] := by
  induction part with
  | nil => rfl
  | cons c rest ih =>
      obtain ⟨other, later⟩ := List.ne_and_not_mem_of_not_mem_cons h
      rw [splitAtChar, if_neg other.symm, ih later]

theorem splitAtChar_append_separator (separator : Char) (cs ds : List Char) :
    splitAtChar separator (cs ++ separator :: ds) =
      splitAtChar separator cs ++ splitAtChar separator ds := by
  induction cs with
  | nil =>
      change splitAtChar separator (separator :: ds) = [] :: splitAtChar separator ds
      rw [splitAtChar, if_pos rfl]
  | cons c rest ih =>
      rw [List.cons_append, splitAtChar, splitAtChar, ih]
      split
      · rfl
      · obtain ⟨part, parts, parted⟩ :=
          List.exists_cons_of_ne_nil (splitAtChar_ne_nil separator rest)
        rw [parted]
        rfl

theorem splitAtChar_append {separator : Char} {part : List Char} (h : separator ∉ part)
    (cs : List Char) :
    splitAtChar separator (part ++ separator :: cs) = part :: splitAtChar separator cs := by
  rw [splitAtChar_append_separator, splitAtChar_of_not_mem h, List.singleton_append]

/-- Joining undoes splitting. -/
theorem intercalate_splitAtChar (separator : Char) (cs : List Char) :
    [separator].intercalate (splitAtChar separator cs) = cs := by
  induction cs with
  | nil => rfl
  | cons c rest ih =>
      obtain ⟨part, parts, parted⟩ := List.exists_cons_of_ne_nil (splitAtChar_ne_nil separator rest)
      rw [parted] at ih
      rw [splitAtChar, parted]
      split
      next same => rw [same, List.intercalate_cons_cons, ih, List.nil_append, List.singleton_append]
      next =>
        cases parts with
        | nil => rw [← ih, List.intercalate_singleton, List.intercalate_singleton]
        | cons second parts =>
            rw [← ih, List.intercalate_cons_cons, List.intercalate_cons_cons, List.cons_append,
              List.cons_append]

theorem splitAtChar_inj {separator : Char} {cs ds : List Char} :
    splitAtChar separator cs = splitAtChar separator ds ↔ cs = ds := by
  refine ⟨fun same => ?_, congrArg _⟩
  rw [← intercalate_splitAtChar separator cs, same, intercalate_splitAtChar]

/-- A change of characters that leaves the separators where they are changes each part. -/
theorem splitAtChar_map {separator : Char} {f : Char → Char}
    (kept : ∀ c, f c = separator ↔ c = separator) (cs : List Char) :
    splitAtChar separator (cs.map f) = (splitAtChar separator cs).map (List.map f) := by
  induction cs with
  | nil => rfl
  | cons c rest ih =>
      rw [List.map_cons, splitAtChar, splitAtChar, ih]
      by_cases same : c = separator
      · rw [if_pos same, if_pos ((kept c).mpr same), List.map_cons, List.map_nil]
      · rw [if_neg same, if_neg (mt (kept c).mp same)]
        cases splitAtChar separator rest <;> rfl

/-- Splitting undoes joining. -/
theorem splitText_intercalate {separator : Char} {parts : List String} (nonempty : parts ≠ [])
    (each : ∀ part ∈ parts, separator ∉ part.toList) :
    splitText separator (String.intercalate (String.singleton separator) parts) = parts := by
  induction parts with
  | nil => exact absurd rfl nonempty
  | cons part rest ih =>
      obtain ⟨first, later⟩ := List.forall_mem_cons.mp each
      cases rest with
      | nil =>
          rw [String.intercalate_singleton, splitText, splitAtChar_of_not_mem first]
          simp
      | cons second rest =>
          have split := ih (List.cons_ne_nil second rest) later
          rw [splitText] at split ⊢
          rw [String.intercalate_cons_cons, String.toList_append, String.toList_append,
            String.toList_singleton, List.append_assoc, List.singleton_append,
            splitAtChar_append first, List.map_cons, split, String.ofList_toList]

theorem breakLines_cons {c : Char} (inline : isLineBreak c = false) (cs : List Char) :
    breakLines (c :: cs) = match breakLines cs with
      | [] => [[c]]
      | line :: lines => (c :: line) :: lines := by
  have other : ∀ rest, c = '\r' → cs = '\n' :: rest → False := by
    rintro rest rfl
    cases inline
  have opened := breakLines.eq_3 c cs other
  rw [inline, if_neg Bool.false_ne_true] at opened
  exact opened

theorem breakLines_append {line : List Char} (inline : ∀ c ∈ line, isLineBreak c = false)
    (rest : List Char) : breakLines (line ++ '\n' :: rest) = line :: breakLines rest := by
  induction line with
  | nil => exact breakLines.eq_3 '\n' rest (fun _ same => nomatch same)
  | cons c line ih =>
      obtain ⟨first, later⟩ := List.forall_mem_cons.mp inline
      rw [List.cons_append, breakLines_cons first, ih later]

theorem breakLines_line {line : List Char} (inline : ∀ c ∈ line, isLineBreak c = false)
    (some' : line ≠ []) : breakLines line = [line] := by
  induction line with
  | nil => exact absurd rfl some'
  | cons c line ih =>
      obtain ⟨first, later⟩ := List.forall_mem_cons.mp inline
      rw [breakLines_cons first]
      by_cases single : line = []
      · rw [single]
        rfl
      · rw [ih later single]

end TestRoster
