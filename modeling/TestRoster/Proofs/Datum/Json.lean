import TestRoster.Proofs.Datum.Field
import TestRoster.Proofs.Datum.Number
import TestRoster.Proofs.Datum.Quoted

/-!
Documents that are written as JSON are read back.

This holds of every value that a document can give, in every layout that puts blanks only around the
commas, the colons and the parts. Where the layout sorts fields, the value that is read has them
sorted.
-/
namespace TestRoster

/-- A value whose integers have not too many digits, whose numbers are canonical, and whose
dictionaries have each name once. -/
inductive Datum.Plain : Datum → Prop
  | null : Plain .null
  | bool (b : Bool) : Plain (.bool b)
  | int {n : Int} (small : n.natAbs < 10 ^ numeralLimit) : Plain (.int n)
  | float {x : Binary64} (canonical : x.IsCanonical) : Plain (.float x)
  | str (s : String) : Plain (.str s)
  | list {items : List Datum} (each : ∀ d ∈ items, Plain d) : Plain (.list items)
  | dict {fields : List (String × Datum)} (once : (fields.map Prod.fst).Nodup)
      (each : ∀ f ∈ fields, Plain f.2) : Plain (.dict fields)

namespace Json

/-- A layout that separates parts by blanks, and items and names by a comma and a colon. -/
structure Layout.Spaced (l : Layout) : Prop where
  lineEnd : ∀ depth, ∀ c ∈ (l.lineEnd depth).toList, isSpace c = true
  item : ∃ blanks, l.itemSeparator.toList = ',' :: blanks ∧ ∀ c ∈ blanks, isSpace c = true
  name : ∃ blanks, l.nameSeparator.toList = ':' :: blanks ∧ ∀ c ∈ blanks, isSpace c = true

theorem Layout.mem_lineEnd {l : Layout} {depth : Nat} {c : Char}
    (member : c ∈ (l.lineEnd depth).toList) : c = '\n' ∨ ∃ unit ∈ l.indent, c ∈ unit.toList := by
  rw [lineEnd] at member
  split at member
  next => cases member
  next unit indented =>
    rw [String.toList_append] at member
    rcases List.mem_append.mp member with first | later
    · exact .inl (List.mem_singleton.mp first)
    · refine .inr ⟨unit, indented, ?_⟩
      clear member
      induction depth with
      | zero => cases later
      | succ depth ih =>
          rw [List.replicate_succ, String.join_cons, String.toList_append] at later
          exact (List.mem_append.mp later).elim id ih

/-- The layout that an indentation gives: one line without it, else one line per part. -/
def Layout.ofIndent (indent : Option String) : Layout :=
  { indent := indent, itemSeparator := if indent.isSome then "," else ", " }

theorem Layout.ofIndent_spaces (width : Nat) :
    ofIndent (some (String.ofList (List.replicate width ' '))) = indented width := rfl

theorem Layout.spaced_ofIndent {indent : Option String}
    (blank : ∀ unit ∈ indent, ∀ c ∈ unit.toList, isSpace c = true) : (ofIndent indent).Spaced where
  lineEnd := fun _ c member => by
    rcases mem_lineEnd member with rfl | ⟨unit, indented, inside⟩
    · rfl
    · exact blank unit indented c inside
  item := by
    cases indent with
    | none => exact ⟨[' '], rfl, List.forall_mem_singleton.mpr rfl⟩
    | some unit =>
        have comma : ",".toList = [','] := rfl
        exact ⟨[], comma, by simp⟩
  name := by
    have colon : ": ".toList = [':', ' '] := rfl
    exact ⟨[' '], colon, List.forall_mem_singleton.mpr rfl⟩

theorem Layout.spaced_indented (width : Nat) : (indented width).Spaced := by
  rw [← ofIndent_spaces]
  refine spaced_ofIndent ?_
  rintro unit ⟨⟩ c member
  rw [String.toList_ofList] at member
  rw [List.eq_of_mem_replicate member]
  rfl

def Layout.arrange {α : Type} (l : Layout) (fields : List (String × α)) : List (String × α) :=
  if l.sortFields then fields.mergeSort fun a b => decide (a.1 ≤ b.1) else fields

theorem Layout.arrange_perm {α : Type} (l : Layout) (fields : List (String × α)) :
    (l.arrange fields).Perm fields := by
  rw [arrange]
  split
  · exact List.mergeSort_perm _ _
  · exact .refl _

theorem Layout.arrange_map {α β : Type} (l : Layout) (f : α → β) (fields : List (String × α)) :
    l.arrange (fields.map fun e => (e.1, f e.2)) = (l.arrange fields).map fun e =>
      (e.1, f e.2) := by
  rw [arrange, arrange]
  split
  · refine (List.map_mergeSort ?_).symm
    intro a _ b _
    rfl
  · rfl

end Json

mutual

/-- A value with all fields in the order of a layout. -/
def Datum.arranged (l : Json.Layout) : Datum → Datum
  | .list items => .list (arrangedItems l items)
  | .dict fields => .dict (l.arrange (arrangedFields l fields))
  | d => d

def Datum.arrangedItems (l : Json.Layout) : List Datum → List Datum
  | [] => []
  | d :: rest => arranged l d :: arrangedItems l rest

def Datum.arrangedFields (l : Json.Layout) : List (String × Datum) → List (String × Datum)
  | [] => []
  | (name, d) :: rest => (name, arranged l d) :: arrangedFields l rest

end

theorem Datum.arrangedItems_eq_map (l : Json.Layout) (items : List Datum) :
    arrangedItems l items = items.map (arranged l) := by
  induction items with
  | nil => rw [arrangedItems]; rfl
  | cons d rest ih => rw [arrangedItems, ih]; rfl

theorem Datum.arrangedFields_eq_map (l : Json.Layout) (fields : List (String × Datum)) :
    arrangedFields l fields = fields.map fun f => (f.1, arranged l f.2) := by
  induction fields with
  | nil => rw [arrangedFields]; rfl
  | cons f rest ih => rw [arrangedFields, ih]; rfl

namespace Json

theorem writeItems_eq_map (l : Layout) (depth : Nat) (items : List Datum) :
    writeItems l depth items = items.map (write l depth) := by
  induction items with
  | nil => rw [writeItems]; rfl
  | cons d rest ih => rw [writeItems, ih]; rfl

theorem writeFields_eq_map (l : Layout) (depth : Nat) (fields : List (String × Datum)) :
    writeFields l depth fields = fields.map fun f => (f.1, write l depth f.2) := by
  induction fields with
  | nil => rw [writeFields]; rfl
  | cons f rest ih => rw [writeFields, ih]; rfl

theorem skipSpace_append {blanks : List Char} (all : ∀ c ∈ blanks, isSpace c = true)
    (rest : List Char) : skipSpace (blanks ++ rest) = skipSpace rest :=
  List.dropWhile_append_of_pos all

theorem skipSpace_cons {c : Char} (solid : isSpace c = false) (rest : List Char) :
    skipSpace (c :: rest) = c :: rest := by
  rw [skipSpace, List.dropWhile_cons_of_neg (by simp [solid])]

theorem blanks_append {blanks more : List Char} (all : ∀ c ∈ blanks, isSpace c = true)
    (all' : ∀ c ∈ more, isSpace c = true) : ∀ c ∈ blanks ++ more, isSpace c = true := by
  intro c member
  exact (List.mem_append.mp member).elim (all c) (all' c)

/-- Parts as they stand behind the opening of a list or a dictionary, each behind a separator. -/
def behind (separator : List Char) (parts : List (List Char)) : List Char :=
  parts.flatMap (separator ++ ·)

theorem intercalate_cons (separator part : List Char) (parts : List (List Char)) :
    separator.intercalate (part :: parts) = part ++ behind separator parts := by
  induction parts generalizing part with
  | nil => simp [behind, List.intercalate]
  | cons second rest ih =>
      have next : separator.intercalate (part :: second :: rest) =
          part ++ (separator ++ separator.intercalate (second :: rest)) := by
        simp [List.intercalate]
      rw [next, ih, behind, behind, List.flatMap_cons, List.append_assoc]

theorem toList_enclose_nil (l : Layout) (opening closing : String) (depth : Nat) :
    (l.enclose opening closing depth []).toList = opening.toList ++ closing.toList := by
  simp [Layout.enclose]

theorem toList_enclose_cons (l : Layout) (opening closing : String) (depth : Nat) (part : String)
    (parts : List String) :
    (l.enclose opening closing depth (part :: parts)).toList =
      opening.toList ++ ((l.lineEnd (depth + 1)).toList ++ (part.toList ++
        (behind (l.itemSeparator.toList ++ (l.lineEnd (depth + 1)).toList)
          (parts.map String.toList) ++
          ((l.lineEnd depth).toList ++ closing.toList)))) := by
  simp [Layout.enclose, intercalate_cons]

def fieldText (l : Layout) (depth : Nat) (f : String × Datum) : List Char :=
  (quote l.asciiOnly f.1).toList ++ (l.nameSeparator.toList ++ (write l depth f.2).toList)

theorem write_dict (l : Layout) (depth : Nat) (fields : List (String × Datum)) :
    ∃ parts : List String, write l depth (.dict fields) = l.enclose "\x7b" "\x7d" depth parts ∧
      parts.map String.toList = (l.arrange fields).map (fieldText l (depth + 1)) := by
  refine ⟨_, by rw [write], ?_⟩
  have order : l.order (writeFields l (depth + 1) fields) =
      (l.arrange fields).map fun f => (f.1, write l (depth + 1) f.2) := by
    rw [writeFields_eq_map, ← Layout.arrange_map]
    rfl
  rw [order, List.map_map, List.map_map]
  refine List.map_congr_left fun f _ => ?_
  simp [fieldText]

/-- A dictionary stands between its braces. -/
theorem write_dict_ends (l : Layout) (depth : Nat) (fields : List (String × Datum)) :
    ∃ cs, (write l depth (.dict fields)).toList = '\x7b' :: (cs ++ ['\x7d']) := by
  obtain ⟨parts, written, -⟩ := write_dict l depth fields
  rw [written]
  cases parts with
  | nil => exact ⟨[], toList_enclose_nil l _ _ depth⟩
  | cons part parts =>
      rw [toList_enclose_cons]
      exact ⟨(l.lineEnd (depth + 1)).toList ++ (part.toList ++
        (behind (l.itemSeparator.toList ++ (l.lineEnd (depth + 1)).toList)
          (parts.map String.toList) ++
          (l.lineEnd depth).toList)), by simp⟩

theorem write_dict_nil {l : Layout} {fields : List (String × Datum)} (none : l.arrange fields = [])
    (depth : Nat) : (write l depth (.dict fields)).toList = ['\x7b', '\x7d'] := by
  obtain ⟨parts, written, texts⟩ := write_dict l depth fields
  rw [none, List.map_nil, List.map_eq_nil_iff] at texts
  rw [written, texts, toList_enclose_nil]
  rfl

theorem write_dict_cons {l : Layout} {blanks : List Char}
    (separator : l.itemSeparator.toList = ',' :: blanks) {fields fs : List (String × Datum)}
    {f : String × Datum} (sorted : l.arrange fields = f :: fs) (depth : Nat) :
    (write l depth (.dict fields)).toList =
      '\x7b' :: ((l.lineEnd (depth + 1)).toList ++ (fieldText l (depth + 1) f ++
        (behind (',' :: (blanks ++ (l.lineEnd (depth + 1)).toList))
          (fs.map (fieldText l (depth + 1))) ++ ((l.lineEnd depth).toList ++ ['\x7d'])))) := by
  obtain ⟨parts, written, texts⟩ := write_dict l depth fields
  rw [sorted, List.map_cons] at texts
  cases parts with
  | nil => cases texts
  | cons part parts =>
      obtain ⟨first, others⟩ := List.cons.inj texts
      rw [written, toList_enclose_cons, separator, first, others]
      rfl

theorem write_list_nil (l : Layout) (depth : Nat) :
    (write l depth (.list [])).toList = ['[', ']'] := by
  rw [write, writeItems, toList_enclose_nil]
  rfl

theorem write_list_cons {l : Layout} {blanks : List Char}
    (separator : l.itemSeparator.toList = ',' :: blanks) (depth : Nat) (d : Datum)
      (ds : List Datum) :
    (write l depth (.list (d :: ds))).toList =
      '[' :: ((l.lineEnd (depth + 1)).toList ++ ((write l (depth + 1) d).toList ++
        (behind (',' :: (blanks ++ (l.lineEnd (depth + 1)).toList))
          (ds.map fun x => (write l (depth + 1) x).toList) ++
            ((l.lineEnd depth).toList ++ [']'])))) := by
  rw [write, writeItems_eq_map, List.map_cons, toList_enclose_cons, separator, List.map_map]
  rfl

theorem solid_digit {c : Char} (digit : isDigit c = true) :
    isSpace c = false ∧ c ≠ ']' ∧ c ≠ '\uFEFF' := by
  have other : ∀ d, isDigit d = false → c ≠ d := by
    rintro d plain rfl
    rw [digit] at plain
    cases plain
  refine ⟨?_, other ']' rfl, other '\uFEFF' rfl⟩
  simp [isSpace, other ' ' rfl, other '\t' rfl, other '\n' rfl, other '\r' rfl]

/-- Whatever a value is written as starts with a character that is no blank, ends no list and marks
no order of bytes. -/
theorem write_starts {d : Datum} (plain : d.Plain) (l : Layout) (depth : Nat) :
    ∃ c cs, (write l depth d).toList = c :: cs ∧ isSpace c = false ∧ c ≠ ']' ∧ c ≠ '\uFEFF' := by
  cases plain with
  | null => exact ⟨'n', _, by rw [write]; rfl, rfl, by decide, by decide⟩
  | bool b =>
      cases b with
      | false => exact ⟨'f', _, by rw [write]; rfl, rfl, by decide, by decide⟩
      | true => exact ⟨'t', _, by rw [write]; rfl, rfl, by decide, by decide⟩
  | @int n small =>
      obtain ⟨c, cs, starts, sign⟩ := toString_starts n
      refine ⟨c, cs, by rw [write, starts], ?_⟩
      rcases sign with rfl | digit
      · exact ⟨rfl, by decide, by decide⟩
      · exact solid_digit digit
  | @float x canonical =>
      obtain ⟨c, cs, starts, sign⟩ := numberText_starts canonical
      refine ⟨c, cs, by rw [write, starts], ?_⟩
      rcases sign with rfl | rfl | rfl | digit
      · exact ⟨rfl, by decide, by decide⟩
      · exact ⟨rfl, by decide, by decide⟩
      · exact ⟨rfl, by decide, by decide⟩
      · exact solid_digit digit
  | str s => exact ⟨'"', _, by rw [write, toList_quote], rfl, by decide, by decide⟩
  | list each =>
      rw [write]
      cases writeItems l (depth + 1) _ with
      | nil => exact ⟨'[', _, by rw [toList_enclose_nil]; rfl, rfl, by decide, by decide⟩
      | cons part parts =>
        exact ⟨'[', _, by rw [toList_enclose_cons]; rfl, rfl, by decide, by decide⟩
  | dict once each =>
      obtain ⟨parts, written, -⟩ := write_dict l depth _
      rw [written]
      cases parts with
      | nil => exact ⟨'\x7b', _, by rw [toList_enclose_nil]; rfl, rfl, by decide, by decide⟩
      | cons part parts =>
        exact ⟨'\x7b', _, by rw [toList_enclose_cons]; rfl, rfl, by decide, by decide⟩

/-- What a value is written as is read as the value, with its fields in order, where no numeral goes
on behind it. -/
def Reads (l : Layout) (d : Datum) : Prop :=
  ∀ fuel depth rest, Settled rest → 2 * (write l depth d).toList.length ≤ fuel →
    value fuel ((write l depth d).toList ++ rest) = .ok (d.arranged l, rest)

section Parts

variable {l : Layout} {blanks last : List Char}

theorem items_written (allBlanks : ∀ c ∈ blanks, isSpace c = true)
    (allLast : ∀ c ∈ last, isSpace c = true) (depth : Nat) (d : Datum) (ds : List Datum)
    (each : ∀ x ∈ d :: ds, x.Plain ∧ Reads l x) (rest : List Char) (acc : List Datum) (fuel : Nat)
    (enough : 2 * ((write l depth d).toList.length +
      (behind (',' :: blanks) (ds.map fun x => (write l depth x).toList)).length) + 1 ≤ fuel) :
    items fuel ((write l depth d).toList ++
        (behind (',' :: blanks) (ds.map fun x => (write l depth x).toList) ++
          (last ++ ']' :: rest)))
        acc = .ok (.list (acc.reverse ++ (d :: ds).map (Datum.arranged l)), rest) := by
  induction ds generalizing d acc fuel with
  | nil =>
      obtain ⟨fuel, rfl⟩ : ∃ k, fuel = k + 1 := ⟨fuel - 1, by omega⟩
      have closes : skipSpace (last ++ ']' :: rest) = ']' :: rest := by
        rw [skipSpace_append allLast, skipSpace_cons rfl]
      have first := (each d List.mem_cons_self).2 fuel depth (last ++ ']' :: rest)
        (settled_of_skipSpace closes ends_bracket)
          (by simp only [List.map_nil, behind, List.flatMap_nil, List.length_nil] at enough; omega)
      simp only [List.map_nil, behind, List.flatMap_nil, List.nil_append, items, first,
        closes]
      simp
  | cons second ds ih =>
      obtain ⟨fuel, rfl⟩ : ∃ k, fuel = k + 1 := ⟨fuel - 1, by omega⟩
      obtain ⟨plain, first⟩ := each d List.mem_cons_self
      obtain ⟨plain', -⟩ := each second (by simp)
      obtain ⟨c, cs, starts, solid, -⟩ := write_starts plain' l depth
      simp only [List.map_cons, behind, List.flatMap_cons, List.length_append, List.length_cons]
        at enough ih ⊢
      simp only [List.cons_append, List.append_assoc]
      rw [items, first fuel depth _ (settled_cons ends_comma _) (by omega)]
      simp only [skipSpace_cons (show isSpace ',' = false from rfl)]
      have next := ih second (fun x member => each x (List.mem_cons_of_mem _ member))
        (d.arranged l :: acc) fuel (by omega)
      have skipped : ∀ tail, skipSpace (blanks ++ ((write l depth second).toList ++ tail)) =
          (write l depth second).toList ++ tail := by
        intro tail
        rw [skipSpace_append allBlanks, starts, List.cons_append, skipSpace_cons solid]
      rw [skipped]
      simpa using next

variable {colonBlanks : List Char}

theorem fieldText_append (separator : l.nameSeparator.toList = ':' :: colonBlanks) (depth : Nat)
    (f : String × Datum) (tail : List Char) :
    fieldText l depth f ++ tail =
      '"' :: (f.1.toList.flatMap (textChar l.asciiOnly) ++ '"' :: (':' :: (colonBlanks ++
        ((write l depth f.2).toList ++ tail)))) := by
  simp [fieldText, toList_quote, separator]

theorem skip_to_value (allColon : ∀ c ∈ colonBlanks, isSpace c = true) {d : Datum} (plain : d.Plain)
    (depth : Nat) (tail : List Char) :
    skipSpace (colonBlanks ++ ((write l depth d).toList ++ tail)) =
      (write l depth d).toList ++ tail := by
  obtain ⟨c, cs, starts, solid, -⟩ := write_starts plain l depth
  rw [skipSpace_append allColon, starts, List.cons_append, skipSpace_cons solid]

/-- The last field of a dictionary. -/
theorem field_ends (separator : l.nameSeparator.toList = ':' :: colonBlanks)
    (allColon : ∀ c ∈ colonBlanks, isSpace c = true) {f : String × Datum} (plain : f.2.Plain)
    (reads : Reads l f.2) (depth fuel : Nat) (enough : 2 * (write l depth f.2).toList.length ≤ fuel)
    {tail rest : List Char} (ends : skipSpace tail = '\x7d' :: rest) (acc : List (String × Datum)) :
    fields (fuel + 1) (fieldText l depth f ++ tail) acc =
      .ok (.dict (setNamed f.1 (f.2.arranged l) acc), rest) := by
  rw [fieldText_append separator, fields]
  simp only [readQuoted_quote, skipSpace_cons (show isSpace ':' = false from rfl),
    skip_to_value allColon plain, reads fuel depth tail
      (settled_of_skipSpace ends ends_brace) enough, ends]

theorem field_continues (separator : l.nameSeparator.toList = ':' :: colonBlanks)
    (allColon : ∀ c ∈ colonBlanks, isSpace c = true) {f : String × Datum} (plain : f.2.Plain)
    (reads : Reads l f.2) (depth fuel : Nat) (enough : 2 * (write l depth f.2).toList.length ≤ fuel)
    (tail : List Char) (acc : List (String × Datum)) :
    fields (fuel + 1) (fieldText l depth f ++ ',' :: tail) acc =
      fields fuel (skipSpace tail) (setNamed f.1 (f.2.arranged l) acc) := by
  rw [fieldText_append separator, fields]
  simp only [readQuoted_quote, skipSpace_cons (show isSpace ':' = false from rfl),
    skip_to_value allColon plain, reads fuel depth _ (settled_cons ends_comma _) enough,
    skipSpace_cons (show isSpace ',' = false from rfl)]

theorem length_le_fieldText (depth : Nat) (f : String × Datum) :
    (write l depth f.2).toList.length ≤ (fieldText l depth f).length := by
  simp only [fieldText, List.length_append]
  omega

theorem fields_written (separator : l.nameSeparator.toList = ':' :: colonBlanks)
    (allColon : ∀ c ∈ colonBlanks, isSpace c = true) (allBlanks : ∀ c ∈ blanks, isSpace c = true)
    (allLast : ∀ c ∈ last, isSpace c = true) (depth : Nat) (f : String × Datum)
    (fs : List (String × Datum)) (each : ∀ x ∈ f :: fs, x.2.Plain ∧ Reads l x.2)
    (rest : List Char) (acc : List (String × Datum))
    (once : (acc.map Prod.fst ++ (f :: fs).map Prod.fst).Nodup) (fuel : Nat)
    (enough : 2 * ((fieldText l depth f).length +
      (behind (',' :: blanks) (fs.map (fieldText l depth))).length) + 1 ≤ fuel) :
    fields fuel (fieldText l depth f ++ (behind (',' :: blanks) (fs.map (fieldText l depth)) ++
        (last ++ '\x7d' :: rest))) acc =
      .ok (.dict (acc ++ (f :: fs).map fun x => (x.1, x.2.arranged l)), rest) := by
  induction fs generalizing f acc fuel with
  | nil =>
      obtain ⟨fuel, rfl⟩ : ∃ k, fuel = k + 1 := ⟨fuel - 1, by omega⟩
      obtain ⟨plain, reads⟩ := each f List.mem_cons_self
      have shorter := length_le_fieldText (l := l) depth f
      have fresh : f.1 ∉ acc.map Prod.fst := fun member =>
        (List.nodup_append.mp once).2.2 _ member _ List.mem_cons_self rfl
      have ends : skipSpace (last ++ '\x7d' :: rest) = '\x7d' :: rest := by
        rw [skipSpace_append allLast, skipSpace_cons rfl]
      have read := field_ends separator allColon plain reads depth fuel (by omega) ends acc
      simpa [behind, setNamed_fresh fresh] using read
  | cons second fs ih =>
      obtain ⟨fuel, rfl⟩ : ∃ k, fuel = k + 1 := ⟨fuel - 1, by omega⟩
      obtain ⟨plain, reads⟩ := each f List.mem_cons_self
      have shorter := length_le_fieldText (l := l) depth f
      have fresh : f.1 ∉ acc.map Prod.fst := fun member =>
        (List.nodup_append.mp once).2.2 _ member _ List.mem_cons_self rfl
      have once' : ((acc ++ [(f.1, f.2.arranged l)]).map Prod.fst ++
          (second :: fs).map Prod.fst).Nodup := by simpa using once
      simp only [List.map_cons, behind, List.flatMap_cons, List.length_append, List.length_cons]
        at enough
      have next := ih second (fun x member => each x (List.mem_cons_of_mem _ member)) _ once' fuel
        (by simp only [behind]; omega)
      have skipped : ∀ tail, skipSpace (blanks ++ (fieldText l depth second ++ tail)) =
          fieldText l depth second ++ tail := by
        intro tail
        rw [skipSpace_append allBlanks, fieldText_append separator, skipSpace_cons rfl]
      simp only [List.map_cons, behind, List.flatMap_cons, List.cons_append, List.append_assoc]
      rw [field_continues separator allColon plain reads depth fuel (by omega),
        setNamed_fresh fresh, skipped]
      simpa [behind] using next

end Parts

theorem value_list (fuel : Nat) (inner : List Char) {c : Char} {cs : List Char}
    (starts : skipSpace inner = c :: cs) (more : c ≠ ']') :
    value (fuel + 1) ('[' :: inner) = items fuel (c :: cs) [] := by
  rw [value]
  simp only [starts]
  split
  next same =>
    cases same
    exact absurd rfl more
  next => rfl

theorem value_dict (fuel : Nat) (inner : List Char) {c : Char} {cs : List Char}
    (starts : skipSpace inner = c :: cs) (more : c ≠ '\x7d') :
    value (fuel + 1) ('\x7b' :: inner) = fields fuel (c :: cs) [] := by
  rw [value]
  simp only [starts]
  split
  next same =>
    cases same
    exact absurd rfl more
  next => rfl

section

variable {l : Layout}

theorem reads_list (spaced : l.Spaced) {ds : List Datum} (each : ∀ d ∈ ds, d.Plain)
    (reads : ∀ d ∈ ds, Reads l d) : Reads l (.list ds) := by
  obtain ⟨blanks, separator, allBlanks⟩ := spaced.item
  intro fuel depth rest _ enough
  rw [Datum.arranged, Datum.arrangedItems_eq_map]
  cases ds with
  | nil =>
      rw [write_list_nil] at enough ⊢
      obtain ⟨fuel, rfl⟩ : ∃ k, fuel = k + 1 := ⟨fuel - 1, by simp at enough; omega⟩
      rfl
  | cons d ds =>
      rw [write_list_cons separator] at enough ⊢
      obtain ⟨fuel, rfl⟩ : ∃ k, fuel = k + 1 := ⟨fuel - 1, by simp at enough; omega⟩
      have both : ∀ x ∈ d :: ds, x.Plain ∧ Reads l x :=
        fun x member => ⟨each x member, reads x member⟩
      have first := each d List.mem_cons_self
      obtain ⟨c, cs, starts, -, more, -⟩ := write_starts first l (depth + 1)
      have read := items_written (blanks_append allBlanks (spaced.lineEnd (depth + 1)))
        (spaced.lineEnd depth) (depth + 1) d ds both rest [] fuel
        (by simp only [List.length_cons, List.length_append] at enough; omega)
      simp only [List.cons_append, List.append_assoc, List.nil_append]
      rw [value_list fuel _ ((skip_to_value (spaced.lineEnd (depth + 1)) first (depth + 1) _).trans
        (by rw [starts]; rfl)) more]
      rw [starts] at read
      simpa using read

theorem reads_dict (spaced : l.Spaced) {fs : List (String × Datum)} (once : (fs.map Prod.fst).Nodup)
    (each : ∀ f ∈ fs, f.2.Plain) (reads : ∀ f ∈ fs, Reads l f.2) : Reads l (.dict fs) := by
  obtain ⟨blanks, separator, allBlanks⟩ := spaced.item
  obtain ⟨colonBlanks, colon, allColon⟩ := spaced.name
  intro fuel depth rest _ enough
  rw [Datum.arranged, Datum.arrangedFields_eq_map, Layout.arrange_map]
  have perm := l.arrange_perm fs
  have once' : ((l.arrange fs).map Prod.fst).Nodup := (perm.map Prod.fst).nodup_iff.mpr once
  cases sorted : l.arrange fs with
  | nil =>
      rw [write_dict_nil sorted] at enough ⊢
      obtain ⟨fuel, rfl⟩ : ∃ k, fuel = k + 1 := ⟨fuel - 1, by simp at enough; omega⟩
      rfl
  | cons f gs =>
      rw [write_dict_cons separator sorted] at enough ⊢
      obtain ⟨fuel, rfl⟩ : ∃ k, fuel = k + 1 := ⟨fuel - 1, by simp at enough; omega⟩
      rw [sorted] at once' perm
      have both : ∀ x ∈ f :: gs, x.2.Plain ∧ Reads l x.2 := fun x member =>
        ⟨each x (perm.mem_iff.mp member), reads x (perm.mem_iff.mp member)⟩
      have read := fields_written colon allColon
        (blanks_append allBlanks (spaced.lineEnd (depth + 1))) (spaced.lineEnd depth) (depth + 1)
        f gs both rest [] (by simpa using once') fuel
        (by simp only [List.length_cons, List.length_append] at enough; omega)
      simp only [List.cons_append, List.append_assoc, List.nil_append]
      rw [value_dict fuel _ ((skipSpace_append (spaced.lineEnd (depth + 1)) _).trans
        (by rw [fieldText_append colon, skipSpace_cons rfl])) (by decide)]
      rw [fieldText_append colon] at read
      simpa using read

/-- Plain values are read back. The induction is on the value; its parts are read one by one. -/
theorem reads_plain (spaced : l.Spaced) {d : Datum} (plain : d.Plain) : Reads l d := by
  induction plain with
  | null =>
      intro fuel depth rest _ enough
      obtain ⟨fuel, rfl⟩ : ∃ k, fuel = k + 1 := ⟨fuel - 1, by simp [write] at enough; omega⟩
      rw [write]
      simp [value, word?, words, Datum.arranged]
  | bool b =>
      intro fuel depth rest _ enough
      obtain ⟨fuel, rfl⟩ : ∃ k, fuel = k + 1 :=
        ⟨fuel - 1, by cases b <;> simp [write] at enough <;> omega⟩
      rw [write]
      cases b <;> simp [value, word?, words, Datum.arranged]
  | @int n small =>
      intro fuel depth rest settled enough
      obtain ⟨c, cs, starts, -⟩ := toString_starts n
      rw [write] at enough ⊢
      obtain ⟨fuel, rfl⟩ : ∃ k, fuel = k + 1 :=
        ⟨fuel - 1, by rw [starts] at enough; simp at enough; omega⟩
      rw [value_int small settled, Datum.arranged]
      all_goals simp
  | @float x canonical =>
      intro fuel depth rest settled enough
      obtain ⟨c, cs, starts, -⟩ := numberText_starts canonical
      rw [write] at enough ⊢
      obtain ⟨fuel, rfl⟩ : ∃ k, fuel = k + 1 :=
        ⟨fuel - 1, by rw [starts] at enough; simp at enough; omega⟩
      rw [value_float canonical settled, Datum.arranged]
      all_goals simp
  | str s =>
      intro fuel depth rest _ enough
      rw [write, toList_quote] at enough ⊢
      obtain ⟨fuel, rfl⟩ : ∃ k, fuel = k + 1 := ⟨fuel - 1, by simp at enough; omega⟩
      have same : (Datum.str s).arranged l = .str s := by simp [Datum.arranged]
      rw [same]
      simp only [List.cons_append, List.append_assoc, List.nil_append, value, readQuoted_quote]
      rfl
  | list each ih => exact reads_list spaced each ih
  | dict once each ih => exact reads_dict spaced once each ih

end

theorem visible_digitChar : ∀ d, d < 16 → 0x20 ≤ (Nat.digitChar d).toNat := by
  decide

theorem visible_fourDigits {n : Nat} (small : n < 0x10000) :
    ∀ c ∈ fourDigits n, 0x20 ≤ c.toNat := by
  rw [fourDigits, hexPadded_four small]
  simp only [List.forall_mem_cons, List.not_mem_nil, false_implies, implies_true, and_true]
  exact ⟨by decide, by decide, visible_digitChar _ (by omega), visible_digitChar _ (by omega),
    visible_digitChar _ (by omega), visible_digitChar _ (by omega)⟩

theorem visible_escapedChar (c : Char) : ∀ d ∈ escapedChar c, 0x20 ≤ d.toNat := by
  rw [escapedChar_eq]
  split
  next plane => exact visible_fourDigits plane
  next plane =>
    have top : c.toNat < 0x110000 := by
      have point := Utf8.codePoint c
      omega
    obtain ⟨high, low, isHigh, isLow, bounds, bounds', -⟩ := halves (Nat.le_of_not_lt plane) top
    rw [isHigh, isLow]
    intro d member
    rcases List.mem_append.mp member with first | second
    · exact visible_fourDigits (by omega) d first
    · exact visible_fourDigits (by omega) d second

theorem visible_textChar (asciiOnly : Bool) (c : Char) : ∀ d ∈ textChar asciiOnly c, 0x20 ≤
    d.toNat := by
  rw [textChar]
  by_cases simple : c = '"' ∨ c = '\\' ∨ c = '\n' ∨ c = '\r' ∨ c = '\t' ∨ c = '\x0c' ∨ c = '\x08'
  · obtain rfl | rfl | rfl | rfl | rfl | rfl | rfl := simple <;> simp
  · simp only [not_or] at simple
    obtain ⟨quote, back, line, carriage, tab, form, bell⟩ := simple
    rw [if_neg quote, if_neg back, if_neg line, if_neg carriage, if_neg tab, if_neg form,
      if_neg bell]
    by_cases control : c.toNat < 0x20
    · rw [if_pos control]
      exact visible_escapedChar c
    · rw [if_neg control]
      split
      · exact visible_escapedChar c
      · simpa using control

theorem visible_quote (asciiOnly : Bool) (s : String) :
    ∀ c ∈ (quote asciiOnly s).toList, 0x20 ≤ c.toNat := by
  rw [toList_quote]
  intro c member
  simp only [List.mem_cons, List.mem_append, List.mem_flatMap, List.not_mem_nil, or_false] at member
  rcases member with rfl | ⟨d, -, inside⟩ | rfl
  · decide
  · exact visible_textChar asciiOnly d c inside
  · decide

theorem mem_behind {separator : List Char} {parts : List (List Char)} {c : Char}
    (member : c ∈ behind separator parts) : c ∈ separator ∨ ∃ part ∈ parts, c ∈ part := by
  obtain ⟨part, inside, member⟩ := List.mem_flatMap.mp member
  exact (List.mem_append.mp member).imp_right fun here => ⟨part, inside, here⟩

theorem forall_mem_enclose {l : Layout} {P : Char → Prop}
    (lineEnd : ∀ depth, ∀ c ∈ (l.lineEnd depth).toList, P c)
      (item : ∀ c ∈ l.itemSeparator.toList, P c)
    {opening closing : String} (opens : ∀ c ∈ opening.toList, P c)
    (closes : ∀ c ∈ closing.toList, P c) (depth : Nat) {parts : List String}
    (each : ∀ part ∈ parts, ∀ c ∈ part.toList, P c) :
    ∀ c ∈ (l.enclose opening closing depth parts).toList, P c := by
  intro c member
  cases parts with
  | nil =>
      rw [toList_enclose_nil] at member
      exact (List.mem_append.mp member).elim (opens c) (closes c)
  | cons part parts =>
      rw [toList_enclose_cons] at member
      simp only [List.mem_append] at member
      rcases member with here | here | here | here | here | here
      · exact opens c here
      · exact lineEnd _ c here
      · exact each part List.mem_cons_self c here
      · rcases mem_behind here with separator | ⟨text, inside, here⟩
        · exact (List.mem_append.mp separator).elim (item c) (lineEnd _ c)
        · obtain ⟨other, member, rfl⟩ := List.mem_map.mp inside
          exact each other (List.mem_cons_of_mem _ member) c here
      · exact lineEnd _ c here
      · exact closes c here

/-- What a layout and the visible characters have in common, every character of a document has. -/
theorem forall_mem_write {l : Layout} {P : Char → Prop} (visible : ∀ c, 0x20 ≤ c.toNat → P c)
    (lineEnd : ∀ depth, ∀ c ∈ (l.lineEnd depth).toList, P c)
    (item : ∀ c ∈ l.itemSeparator.toList, P c) (name : ∀ c ∈ l.nameSeparator.toList, P c)
    {d : Datum} (plain : d.Plain) (depth : Nat) : ∀ c ∈ (write l depth d).toList, P c := by
  have word : ∀ s : String, (s.toList.all fun c => decide (0x20 ≤ c.toNat)) = true →
      ∀ c ∈ s.toList, P c := fun s all c member =>
    visible c (of_decide_eq_true (List.all_eq_true.mp all c member))
  induction plain generalizing depth with
  | null =>
      rw [write]
      exact word _ (by decide)
  | bool b =>
      rw [write]
      cases b <;> exact word _ (by decide)
  | @int n small =>
      rw [write]
      exact fun c member => visible c (visible_toString n c member)
  | @float x canonical =>
      rw [write]
      exact fun c member => visible c (visible_numberText canonical c member)
  | str s =>
      rw [write]
      exact fun c member => visible c (visible_quote _ s c member)
  | @list ds each ih =>
      rw [write, writeItems_eq_map]
      refine forall_mem_enclose lineEnd item (word _ (by decide)) (word _ (by decide)) depth ?_
      intro part member
      obtain ⟨d, inside, rfl⟩ := List.mem_map.mp member
      exact ih d inside (depth + 1)
  | @dict fs once each ih =>
      obtain ⟨parts, written, texts⟩ := write_dict l depth fs
      rw [written]
      refine forall_mem_enclose lineEnd item (word _ (by decide)) (word _ (by decide)) depth ?_
      intro part member c here
      have inside : part.toList ∈ (l.arrange fs).map (fieldText l (depth + 1)) :=
        texts ▸ List.mem_map_of_mem member
      obtain ⟨f, field, text⟩ := List.mem_map.mp inside
      rw [← text, fieldText] at here
      simp only [List.mem_append] at here
      rcases here with quoted | separator | value
      · exact visible c (visible_quote _ f.1 c quoted)
      · exact name c separator
      · exact ih f ((l.arrange_perm fs).mem_iff.mp field) (depth + 1) c value

end Json

/-- A plain value is read back from its document, with its fields in order. -/
theorem Datum.ofJson_toJson {l : Json.Layout} (spaced : l.Spaced) {d : Datum} (plain : d.Plain) :
    Datum.ofJson (d.toJson l) = .ok (d.arranged l) := by
  obtain ⟨c, cs, starts, solid, -, mark⟩ := Json.write_starts plain l 0
  have read := Json.reads_plain spaced plain (2 * (Json.write l 0 d).toList.length + 2) 0 []
    Json.settled_nil (by omega)
  rw [List.append_nil] at read
  have skipped : Json.skipSpace (Json.write l 0 d).toList = (Json.write l 0 d).toList := by
    rw [starts, Json.skipSpace_cons solid]
  have document : Json.document (Json.write l 0 d).toList = .ok (d.arranged l) := by
    have unmarked : ∀ tail, (Json.write l 0 d).toList = '\uFEFF' :: tail → False := by
      intro tail same
      rw [starts] at same
      exact mark (List.cons.inj same).1
    rw [Json.document]
    · simp only [skipped, read]
      rfl
    · exact unmarked
  rw [ofJson, toJson, document]
  rfl

end TestRoster
