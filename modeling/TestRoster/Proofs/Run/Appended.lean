import Mathlib.Data.List.TakeWhile
import TestRoster.CommandLine.Bundled
import TestRoster.Proofs.Datum.Extent
import TestRoster.Proofs.Run.Recorded

/-!
Entries behind a history of any origin.

An entry is written behind the last character of the file, whatever that is. Where a line end or
blanks come last, the entry has a line of its own and the history is read with it. Anywhere else it
lengthens the line of the last entry, and the history is not read any more.
-/
namespace TestRoster

variable {cs front line : List Char}

def lastLine (cs : List Char) : List Char :=
  (cs.reverse.takeWhile (!isLineEnd ·)).reverse

theorem not_lineEnd_of_mem_lastLine : ∀ c ∈ lastLine cs, isLineEnd c = false := by
  intro c member
  have plain := List.all_eq_true.mp (List.all_takeWhile (p := (!isLineEnd ·)) (l := cs.reverse)) c
    (List.mem_reverse.mp member)
  simpa using plain

/-- In front of the last line there is nothing, or a line end comes last there. -/
theorem exists_front (cs : List Char) :
    ∃ front, cs = front ++ lastLine cs ∧ ∀ c, front.getLast? = some c → isLineEnd c = true := by
  refine ⟨(cs.reverse.dropWhile (!isLineEnd ·)).reverse, ?_, fun c last => ?_⟩
  · rw [lastLine, ← List.reverse_append, List.takeWhile_append_dropWhile, List.reverse_reverse]
  · rw [List.getLast?_reverse] at last
    have ends := List.head?_dropWhile_not (!isLineEnd ·) cs.reverse
    rw [last] at ends
    simpa using ends

/-- Two texts have their line ends unified one by one, unless a line end is cut in half. -/
theorem unifyLineEnds_append (cs : List Char) {ds : List Char} (uncut : ds.head? ≠ some '\n') :
    unifyLineEnds (cs ++ ds) = unifyLineEnds cs ++ unifyLineEnds ds := by
  induction cs using unifyLineEnds.induct with
  | case1 => rfl
  | case2 cs ih =>
      rw [List.cons_append, List.cons_append, unifyLineEnds, unifyLineEnds, ih, List.cons_append]
  | case3 c cs other ih =>
      rw [List.cons_append, unifyLineEnds, unifyLineEnds, ih, List.cons_append]
      · exact other
      · rintro rest rfl same
        cases cs with
        | nil => exact uncut (by rw [← List.nil_append ds, same]; rfl)
        | cons d cs =>
            obtain ⟨rfl, -⟩ := List.cons.inj same
            exact other cs rfl rfl

theorem unifyLineEnds_ended (some' : cs ≠ [])
    (ended : ∀ c, cs.getLast? = some c → isLineEnd c = true) :
    ∃ before, unifyLineEnds cs = before ++ ['\n'] := by
  induction cs using unifyLineEnds.induct with
  | case1 => exact absurd rfl some'
  | case2 cs ih =>
      rw [unifyLineEnds]
      by_cases last : cs = []
      · exact ⟨[], by rw [last]; rfl⟩
      · obtain ⟨before, ends⟩ := ih last fun c here =>
          ended c (by rw [List.getLast?_cons_cons, List.getLast?_cons, here]; rfl)
        exact ⟨'\n' :: before, by rw [ends]; rfl⟩
  | case3 c cs other ih =>
      rw [unifyLineEnds]
      · by_cases last : cs = []
        · subst last
          have ends := ended c rfl
          rw [isLineEnd, Bool.or_eq_true, beq_iff_eq, beq_iff_eq] at ends
          refine ⟨[], ?_⟩
          obtain rfl | rfl := ends <;> rfl
        · obtain ⟨before, ends⟩ := ih last fun d here =>
            ended d (by rw [List.getLast?_cons, here]; rfl)
          exact ⟨_ :: before, by rw [ends]; rfl⟩
      · exact other

/-- Without line ends a text is its own last line, behind the lines of what is in front. -/
theorem splitAtChar_front (ended : ∀ c, front.getLast? = some c → isLineEnd c = true) :
    ∃ lines, ∀ ds : List Char, '\n' ∉ ds →
      splitAtChar '\n' (unifyLineEnds front ++ ds) = lines ++ [ds] := by
  by_cases some' : front = []
  · subst some'
    exact ⟨[], fun ds single => splitAtChar_of_not_mem single⟩
  · obtain ⟨before, unified⟩ := unifyLineEnds_ended some' ended
    refine ⟨splitAtChar '\n' before, fun ds single => ?_⟩
    rw [unified, List.append_assoc, List.singleton_append, splitAtChar_append_separator,
      splitAtChar_of_not_mem single]

theorem not_mem_of_plain (plain : ∀ c ∈ cs, isLineEnd c = false) : '\n' ∉ cs ∧ '\r' ∉ cs :=
  ⟨fun here => absurd (plain _ here) (by decide), fun here => absurd (plain _ here) (by decide)⟩

/-- A line that is written behind a text lengthens its last line. -/
theorem splitLines_append (cs : List Char) :
    ∃ lines, splitLines (unifyLineEnds cs) =
        lines ++ (if lastLine cs = [] then [] else [lastLine cs]) ∧
      ∀ line, line ≠ [] → (∀ c ∈ line, isLineEnd c = false) →
        splitLines (unifyLineEnds (cs ++ (line ++ ['\n']))) = lines ++ [lastLine cs ++ line] := by
  obtain ⟨front, split, ended⟩ := exists_front cs
  obtain ⟨lines, each⟩ := splitAtChar_front ended
  generalize last : lastLine cs = tail at split ⊢
  have plain : ∀ c ∈ tail, isLineEnd c = false := last ▸ not_lineEnd_of_mem_lastLine
  refine ⟨lines, ?_, fun line some' plain' => ?_⟩
  · obtain ⟨single, carriage⟩ := not_mem_of_plain plain
    have uncut : tail.head? ≠ some '\n' := fun head => single (List.mem_of_head? head)
    rw [split, unifyLineEnds_append front uncut, unifyLineEnds_of_not_mem carriage, splitLines,
      each tail single]
    by_cases empty : tail = []
    · simp [empty]
    · simp [empty]
  · have whole : ∀ c ∈ tail ++ line, isLineEnd c = false := fun c member =>
      (List.mem_append.mp member).elim (plain c) (plain' c)
    obtain ⟨single, carriage⟩ := not_mem_of_plain whole
    obtain ⟨c, rest, first⟩ :=
      List.exists_cons_of_ne_nil (List.append_ne_nil_of_right_ne_nil tail some')
    have behind : cs ++ (line ++ ['\n']) = front ++ (tail ++ line ++ ['\n']) := by
      rw [split]
      simp
    have uncut : (tail ++ line ++ ['\n']).head? ≠ some '\n' := by
      rw [first, List.cons_append, List.head?_cons]
      intro same
      exact single (first ▸ Option.some.inj same ▸ List.mem_cons_self)
    have carriage' : '\r' ∉ tail ++ line ++ ['\n'] := fun member =>
      (List.mem_append.mp member).elim carriage (by simp)
    rw [behind, unifyLineEnds_append front uncut, unifyLineEnds_of_not_mem carriage', splitLines,
      ← List.append_assoc, splitAtChar_append_separator, each _ single]
    simp [splitAtChar]

theorem trim_eq_nil_iff : trim cs = [] ↔ ∀ c ∈ cs, isBlank c = true := by
  rw [trim, trimEnd, List.reverse_eq_nil_iff, List.dropWhile_eq_nil_iff]
  simp only [List.mem_reverse, trimStart]
  constructor
  · intro behind c member
    rw [← List.takeWhile_append_dropWhile (p := isBlank) (l := cs)] at member
    rcases List.mem_append.mp member with front | back
    · exact List.mem_takeWhile_imp front
    · exact behind c back
  · exact fun all c member => all c ((List.dropWhile_sublist isBlank).subset member)

theorem trim_blanks_append (blank : ∀ c ∈ cs, isBlank c = true) (line : List Char) :
    trim (cs ++ line) = trim line := by
  rw [trim, trimStart, List.dropWhile_append_of_pos blank]
  rfl

/-- Behind something visible, blanks and what follows them stay as they are. -/
theorem trim_append {last : Char} (some' : trim cs ≠ []) (visible : isBlank last = false)
    (line : List Char) :
    ∃ gap, trim (cs ++ (line ++ [last])) = trim cs ++ (gap ++ (line ++ [last])) := by
  have starts : trimStart cs ≠ [] := fun none' => some' (by rw [trim, none']; rfl)
  have front : trimStart (cs ++ (line ++ [last])) = trimStart cs ++ (line ++ [last]) := by
    rw [trimStart, List.dropWhile_append, if_neg (by simpa [trimStart] using starts)]
    rfl
  have ends : trimEnd (trimStart cs ++ (line ++ [last])) = trimStart cs ++ (line ++ [last]) := by
    simp [trimEnd, visible]
  have back : trimStart cs = trimEnd (trimStart cs) ++
    ((trimStart cs).reverse.takeWhile isBlank).reverse := by
    rw [trimEnd, ← List.reverse_append, List.takeWhile_append_dropWhile, List.reverse_reverse]
  refine ⟨((trimStart cs).reverse.takeWhile isBlank).reverse, ?_⟩
  rw [trim, front, ends, trim, ← List.append_assoc (trimEnd _), ← back]

namespace History

variable {path : String} {number : Nat}

/-- Blanks in front of an entry make no difference. -/
theorem Holds.blanks_append {e : HistoryEntry} (holds : Holds line e)
    (blank : ∀ c ∈ cs, isBlank c = true) : Holds (cs ++ line) e := by
  rw [Holds, trim_blanks_append blank]
  exact holds

/-- An entry with another one behind it on its line is none. -/
theorem Holds.append {e : HistoryEntry} (holds : Holds line e) (r : HistoryRecord)
    (stamp : String) :
    ∃ l c p, entryOf path number (line ++ (r.entry stamp).line.toList) =
      .error (.history (.badLine path number (.malformed .endOfText l c p))) := by
  have some' := holds.trim_ne_nil
  obtain ⟨fields, document, -⟩ := holds
  obtain ⟨inside, ends⟩ := r.line_ends stamp
  obtain ⟨gap, trimmed⟩ :=
    trim_append some' (show isBlank '\x7d' = false from rfl) ('\x7b' :: inside)
  have solid : ∃ c ∈ gap ++ ('\x7b' :: inside ++ ['\x7d']), Json.isSpace c = false :=
    ⟨'\x7b', by simp, rfl⟩
  obtain ⟨l, c, p, longer⟩ := Datum.ofJson_append document solid
  refine ⟨l, c, p, ?_⟩
  rw [entryOf, ends, ← List.cons_append, trimmed]
  split
  next none' => exact absurd (List.append_eq_nil_iff.mp none').1 some'
  next => rw [longer]

variable {text : List Char} {entries : List HistoryEntry}

/-- The lines of a text in front of its last one, and what is read from them, with and without an
entry behind the text. -/
theorem entriesFrom_written
    (read : entriesFrom path 1 (splitLines (unifyLineEnds text)) = .ok entries)
    (r : HistoryRecord) (stamp : String) :
    ∃ (lines : List (List Char)) (before after : List HistoryEntry),
      splitLines (unifyLineEnds text) = lines ++
        (if lastLine text = [] then [] else [lastLine text]) ∧
      entriesFrom path (1 + lines.length) (if lastLine text = [] then [] else [lastLine text]) =
        .ok after ∧
      before ++ after = entries ∧
      entriesFrom path 1 (splitLines (unifyLineEnds
          (text ++ ((r.entry stamp).line ++ "\n").toList))) =
        ((entryOf path (1 + lines.length) (lastLine text ++ (r.entry stamp).line.toList)).map
          Option.toList).map (before ++ ·) := by
  obtain ⟨lines, whole, longer⟩ := splitLines_append text
  obtain ⟨inside, ends⟩ := r.line_ends stamp
  have some' : (r.entry stamp).line.toList ≠ [] := by
    rw [ends]
    exact List.cons_ne_nil _ _
  have plain : ∀ c ∈ (r.entry stamp).line.toList, isLineEnd c = false := by
    intro c member
    have visible := r.visible_line stamp c member
    rw [isLineEnd, Bool.or_eq_false_iff, beq_eq_false_iff_ne, beq_eq_false_iff_ne]
    constructor <;> (rintro rfl; exact absurd visible (by decide))
  rw [whole] at read
  obtain ⟨before, after, first, second, joined⟩ := entriesFrom_append_eq_ok_iff.mp read
  refine ⟨lines, before, after, whole, second, joined, ?_⟩
  rw [String.toList_append, show "\n".toList = ['\n'] from rfl, longer _ some' plain,
    entriesFrom_append, first, entriesFrom_singleton]
  rfl

/-- An entry behind a line end or blanks is read after the others. -/
theorem entriesFrom_of_ended
    (read : entriesFrom path 1 (splitLines (unifyLineEnds text)) = .ok entries)
    (ended : ∀ c ∈ lastLine text, isBlank c = true) (r : HistoryRecord) (stamp : String) :
    entriesFrom path 1 (splitLines (unifyLineEnds
      (text ++ ((r.entry stamp).line ++ "\n").toList))) = .ok (entries ++ [r.entry stamp]) := by
  obtain ⟨lines, before, after, -, last, joined, written⟩ := entriesFrom_written read r stamp
  have nothing : after = [] := by
    split at last
    next => cases last; rfl
    next =>
      rw [entriesFrom_singleton, entryOf_eq_none_iff.mpr (trim_eq_nil_iff.mpr ended)] at last
      cases last
      rfl
  have holds := (holds_line r stamp).blanks_append ended
  rw [written, entryOf_eq_some_iff.mpr holds, ← joined, nothing, List.append_nil]
  rfl

/-- An entry behind anything else makes the last line unreadable. -/
theorem entriesFrom_of_unended
    (read : entriesFrom path 1 (splitLines (unifyLineEnds text)) = .ok entries)
    (unended : ∃ c ∈ lastLine text, isBlank c = false) (r : HistoryRecord) (stamp : String) :
    ∃ l c p, entriesFrom path 1 (splitLines (unifyLineEnds
        (text ++ ((r.entry stamp).line ++ "\n").toList))) =
      .error (.history (.badLine path (splitLines (unifyLineEnds text)).length
        (.malformed .endOfText l c p))) := by
  obtain ⟨lines, before, after, whole, last, -, written⟩ := entriesFrom_written read r stamp
  obtain ⟨c, member, visible⟩ := unended
  have some' : lastLine text ≠ [] := List.ne_nil_of_mem member
  rw [if_neg some'] at whole last
  have place : (splitLines (unifyLineEnds text)).length = 1 + lines.length := by
    rw [whole, List.length_append, List.length_singleton, Nat.add_comm]
  rw [entriesFrom_singleton] at last
  cases entry : entryOf path (1 + lines.length) (lastLine text) with
  | error e =>
      rw [entry] at last
      cases last
  | ok o =>
      cases o with
      | none =>
          rw [trim_eq_nil_iff.mp (entryOf_eq_none_iff.mp entry) c member] at visible
          cases visible
      | some e =>
          obtain ⟨l, c, p, fails⟩ := (entryOf_eq_some_iff.mp entry).append r stamp
          refine ⟨l, c, p, ?_⟩
          rw [written, fails, place]
          rfl

theorem ofLines_eq_ok_iff {lines : List (List Char) × Option Utf8.DecodeFault} :
    ofLines path lines = .ok entries ↔ entriesFrom path 1 lines.1 = .ok entries ∧
      lines.2 = none := by
  rw [ofLines]
  cases entriesFrom path 1 lines.1 with
  | error e => simp
  | ok es => cases lines.2 <;> simp

end History

open FileSystem

variable {p : Path} {s : Session} {bytes : List UInt8} {entries : List HistoryEntry}

/-- A history that is loaded is a text, and its lines are read. -/
theorem lines_of_loaded (is_open : s.files.Open p)
    (file : s.files.occupant? (s.files.place p) = some (.file bytes))
    (loaded : (Act.loadEntries p).run s = (.ok entries, s)) :
    ∃ text, Utf8.decode? bytes = .ok text ∧
      History.entriesFrom p.toString 1 (splitLines (unifyLineEnds text)) = .ok entries := by
  rw [Act.loadEntries_run_of_file is_open file] at loaded
  obtain ⟨read, unflawed⟩ := History.ofLines_eq_ok_iff.mp (Prod.mk.inj loaded).1
  obtain ⟨text, decoded, lines⟩ := linesOf_eq_iff.mp (Prod.ext rfl unflawed)
  exact ⟨text, decoded, lines ▸ read⟩

/-- Appending keeps a history that is loaded exactly if nothing but blanks stands behind its last
line end. Otherwise the history is refused from then on, at the line that was the last one. -/
theorem appending_keeps_history_iff_last_line_is_blank (named : p.names ≠ [])
    (is_open : s.files.Open p) (file : s.files.occupant? (s.files.place p) = some (.file bytes))
    (loaded : (Act.loadEntries p).run s = (.ok entries, s)) (r : HistoryRecord) (stamp : String) :
    ∃ text s', Utf8.decode? bytes = .ok text ∧
      (Act.appendEntry p (r.entry stamp)).run s = (.ok (), s') ∧
      ((∀ c ∈ lastLine text, isBlank c = true) →
        (Act.loadEntries p).run s' = (.ok (entries ++ [r.entry stamp]), s')) ∧
      ((∃ c ∈ lastLine text, isBlank c = false) → ∃ line column position,
        (Act.loadEntries p).run s' =
          (.error (.history (.badLine p.toString (splitLines (unifyLineEnds text)).length
            (.malformed .endOfText line column position))), s')) := by
  obtain ⟨text, decoded, read⟩ := lines_of_loaded is_open file loaded
  obtain ⟨s', appends, -, -, is_open', old, held, file'⟩ :=
    Act.appendEntry_run_of_ready (ready_of_file named is_open file) (r.entry stamp)
  have before : old.getD [] = bytes := by
    rw [file] at held
    cases old with
    | none => cases held
    | some old => cases held; rfl
  rw [before] at file'
  have lines : linesOf (bytes ++ Utf8.encode ((r.entry stamp).line ++ "\n").toList) =
      (splitLines (unifyLineEnds (text ++ ((r.entry stamp).line ++ "\n").toList)), none) :=
    linesOf_eq_iff.mpr ⟨_, Utf8.decode?_append_encode decoded _, rfl⟩
  have loads := Act.loadEntries_run_of_file is_open' file'
  rw [lines] at loads
  refine ⟨text, s', decoded, appends, fun ended => ?_, fun unended => ?_⟩
  · have whole := History.entriesFrom_of_ended read ended r stamp
    rw [loads, History.ofLines_eq_ok_iff.mpr ⟨whole, rfl⟩]
  · obtain ⟨line, column, position, fails⟩ := History.entriesFrom_of_unended read unended r stamp
    refine ⟨line, column, position, ?_⟩
    rw [loads, History.ofLines, fails]

def historySession (bytes : List UInt8) : Session where
  files := { root := .directory [("h", .file bytes)], current := [] }
  clock := { year := 2024, month := 1, day := 1, offset := some 0 }
  homes := { own := "/home/user", programDirectory := "/home/user/.config/go-test" }
  library := .bundled
  toolDirectory := "/usr/local/bin"

def foreignLine : String :=
  "\x7b\"args\": [\"go\"], \"cwd\": \"/src\"\x7d"

theorem historySession_open (bytes : List UInt8) :
    (historySession bytes).files.Open (Path.ofString "h") := by
  intro way member
  rw [List.mem_singleton.mp member]
  rfl

theorem historySession_file (bytes : List UInt8) :
    (historySession bytes).files.occupant?
      ((historySession bytes).files.place (Path.ofString "h")) =
      some (.file bytes) := rfl

theorem ofJson_foreignLine :
    Datum.ofJson foreignLine = .ok (.dict [("args", .list [.str "go"]), ("cwd", .str "/src")]) := by
  have plain : (Datum.dict [("args", .list [.str "go"]), ("cwd", .str "/src")]).Plain := by
    refine .dict (by decide) ?_
    simp only [List.forall_mem_cons, List.not_mem_nil, false_implies, implies_true, and_true]
    exact ⟨.list fun d member => List.mem_singleton.mp member ▸ .str "go", .str "/src"⟩
  have written : foreignLine =
      (Datum.dict [("args", .list [.str "go"]), ("cwd", .str "/src")]).toJson {} := by
    decide +kernel
  rw [written, Datum.ofJson_toJson Json.spaced_line plain, Datum.arranged_of_unsorted rfl plain]

theorem holds_foreignLine :
    History.Holds foreignLine.toList ⟨[.str "go"], .str "/src", false, .str ""⟩ := by
  have trimmed : trim foreignLine.toList = foreignLine.toList := by decide +kernel
  have document := ofJson_foreignLine
  rw [← String.ofList_toList (s := foreignLine), ← trimmed] at document
  exact ⟨_, document, ⟨rfl, rfl, rfl, rfl⟩⟩

theorem appending_keeps_blank_line_at_end :
    let s := historySession (Utf8.encode (foreignLine ++ "\n \t").toList)
    let r : HistoryRecord := ⟨["dlv"], "/src", true⟩
    let old : HistoryEntry := ⟨[.str "go"], .str "/src", false, .str ""⟩
    ∃ s', (Act.appendEntry (Path.ofString "h") (r.entry "t")).run s = (.ok (), s') ∧
      (Act.loadEntries (Path.ofString "h")).run s' = (.ok [old, r.entry "t"], s') := by
  intro s r old
  have is_open : s.files.Open (Path.ofString "h") := historySession_open _
  have file := historySession_file (Utf8.encode (foreignLine ++ "\n \t").toList)
  have lines : linesOf (Utf8.encode (foreignLine ++ "\n \t").toList) =
      ([foreignLine.toList, [' ', '\t']], none) :=
    linesOf_eq_iff.mpr ⟨_, Utf8.decode?_encode _, by decide +kernel⟩
  have first : History.entryOf "h" 1 foreignLine.toList = .ok (some old) :=
    History.entryOf_eq_some_iff.mpr holds_foreignLine
  have second : History.entryOf "h" 2 [' ', '\t'] = .ok none :=
    History.entryOf_eq_none_iff.mpr (by decide)
  have loaded : (Act.loadEntries (Path.ofString "h")).run s = (.ok [old], s) := by
    have path : (Path.ofString "h").toString = "h" := by decide
    rw [Act.loadEntries_run_of_file is_open file, lines, path, History.ofLines,
      History.entriesFrom, first, History.entriesFrom, second]
    rfl
  obtain ⟨text, s', decoded, appends, keeps, -⟩ :=
    appending_keeps_history_iff_last_line_is_blank (by decide) is_open file loaded r "t"
  cases decoded.symm.trans (Utf8.decode?_encode _)
  have blank : (lastLine (foreignLine ++ "\n \t").toList).all isBlank = true := by decide +kernel
  exact ⟨s', appends, keeps (List.all_eq_true.mp blank)⟩

/-- Without a line end behind it the only entry is lost with the entry that is appended. -/
theorem appending_to_unended_line_loses_history :
    let s := historySession (Utf8.encode foreignLine.toList)
    let r : HistoryRecord := ⟨["dlv"], "/src", true⟩
    let appended := (Act.appendEntry (Path.ofString "h") (r.entry "t")).run s
    ((Act.loadEntries (Path.ofString "h")).run s).1.toOption.map List.length = some 1 ∧
      appended.1.toOption = some () ∧
      (match ((Act.loadEntries (Path.ofString "h")).run appended.2).1 with
        | .ok _ => none
        | .error f => some f) =
        some (.history (.badLine "h" 1 (.malformed .endOfText 1 32 31))) := by
  decide +kernel

end TestRoster
