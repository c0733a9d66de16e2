import Mathlib.Data.List.Induction
import TestRoster.Proofs.Datum.Distinct
import TestRoster.Proofs.Datum.Field
import TestRoster.Proofs.Settings.Bundled
import TestRoster.Settings.Basic

/-!
What a page of settings means.

The lines of a page are gathered by their keys, letter for letter: a key stands in the place of its
first line and has the value of its last one. A setting then takes the last of its keys that has a
valid value. So its last valid line counts, unless the key of this line is repeated without a valid
value, or another of its keys that has a valid value was first met between two lines of this one.
-/
namespace TestRoster

inductive SettingValue where
  | flag (b : Bool)
  | path (p : Path)
  deriving DecidableEq, Repr

def Settings.get (s : Settings) : SettingName → SettingValue
  | .colorizeOutput => .flag s.colorizeOutput
  | .historyFile => .path s.historyFile
  | .benchmarkStore => .path s.benchmarkStore

theorem Settings.ext_get {s t : Settings} (each : ∀ name, s.get name = t.get name) : s = t := by
  obtain ⟨color, history, store⟩ := s
  obtain ⟨color', history', store'⟩ := t
  obtain rfl := SettingValue.flag.inj (each .colorizeOutput)
  obtain rfl := SettingValue.path.inj (each .historyFile)
  obtain rfl := SettingValue.path.inj (each .benchmarkStore)
  rfl

def SettingName.read? (homes : Homes) (word : String) : SettingName → Option SettingValue
  | .colorizeOutput => (boolOfWord? word).map .flag
  | .historyFile | .benchmarkStore => some (.path (Path.ofString (homes.expand word)))

namespace Setting

variable (homes : Homes) (name : SettingName)

/-- The value that a line gives to a setting, if it names the setting and is valid. -/
def valid? (entry : String × String) : Option SettingValue :=
  if SettingName.ofKey? entry.1 = some name then name.read? homes entry.2 else none

theorem valid?_mk (key word : String) :
    valid? homes name (key, word) =
      if SettingName.ofKey? key = some name then name.read? homes word else none :=
  rfl

def lastValid? (entries : List (String × String)) : Option SettingValue :=
  (entries.filterMap (valid? homes name)).getLast?

/-- The value that a key gives to a setting: that of its last line, if it is valid. -/
def keyValue? (entries : List (String × String)) (key : String) : Option SettingValue :=
  (entries.reverse.lookup key).bind fun value => valid? homes name (key, value)

def keys (entries : List (String × String)) : List String :=
  (entries.map Prod.fst).eraseDups

/-- That nothing takes the place of the last valid line of a setting. No later line has its key, and
every valid line since the first one with its key has this key, one that was met before, or one that
gives no value in the end. -/
def Settled (entries : List (String × String)) : Prop :=
  ∀ before key value after, entries = before ++ (key, value) :: after →
    (valid? homes name (key, value)).isSome = true → (∀ e ∈ after, valid? homes name e = none) →
      key ∉ after.map Prod.fst ∧
      ∃ earlier between, before = earlier ++ between ∧ key ∉ earlier.map Prod.fst ∧
        ∀ e ∈ between, (valid? homes name e).isSome = true →
          e.1 = key ∨ e.1 ∈ earlier.map Prod.fst ∨ keyValue? homes name entries e.1 = none

end Setting

section

variable {α : Type} [BEq α] [LawfulBEq α]

theorem eraseDups_filter (p : α → Bool) : (l : List α) →
    (l.filter p).eraseDups = l.eraseDups.filter p
  | [] => rfl
  | a :: l => by
      have later := eraseDups_filter p (l.filter fun b => !b == a)
      rw [List.filter_filter] at later
      by_cases kept : p a = true
      · rw [List.filter_cons_of_pos kept, List.eraseDups_cons, List.eraseDups_cons,
          List.filter_cons_of_pos kept, ← later, List.filter_filter]
        simp only [Bool.and_comm]
      · rw [List.filter_cons_of_neg kept, List.eraseDups_cons, List.filter_cons_of_neg kept,
          ← later]
        -- the first one is dropped anyway, so its copies need not be
        congr 1
        refine List.filter_congr fun b member => ?_
        by_cases same : b = a
        · simp [same, kept]
        · simp [same]
termination_by l => l.length
decreasing_by exact Nat.lt_succ_of_le (List.length_filter_le _ _)

theorem mem_removeAll {a : α} {l l' : List α} : a ∈ l.removeAll l' ↔ a ∈ l ∧ a ∉ l' := by
  simp [List.removeAll]

end

namespace Setting

variable {entries : List (String × String)} {key : String}

theorem setNamed_map {l : List String} (once : l.Nodup) (key : String) (value : Option String)
    (f : String → Option String) :
    setNamed key value (l.map fun k => (k, f k)) =
      (if key ∈ l then l else l ++ [key]).map fun k => (k, if k = key then value else f k) := by
  induction l with
  | nil => simp [setNamed]
  | cons k l ih =>
      obtain ⟨fresh, once⟩ := List.nodup_cons.mp once
      rw [List.map_cons, setNamed]
      by_cases same : k = key
      · subst same
        have others : l.map (fun k' => (k', if k' = k then value else f k')) =
            l.map fun k' => (k', f k') :=
          List.map_congr_left fun k' member => by
            rw [if_neg fun same : k' = k => fresh (same ▸ member)]
        simp [others]
      · rw [if_neg same, ih once]
        by_cases member : key ∈ l
        · simp [member, same]
        · simp [member, same, Ne.symm same]

theorem nodup_keys (entries : List (String × String)) : (keys entries).Nodup :=
  nodup_eraseDups _

theorem keys_append (entries : List (String × String)) (e : String × String) :
    keys (entries ++ [e]) = if e.1 ∈ keys entries then keys entries else keys entries ++ [e.1] := by
  rw [keys, List.map_append, List.map_singleton, eraseDups_concat]
  rfl

/-- Each key stands in the place of its first line, with the value of its last one. -/
theorem foldl_setNamed_eq (entries : List (String × String)) :
    entries.foldl (fun settings e => setNamed e.1 (some e.2) settings) [] =
      (keys entries).map fun key => (key, entries.reverse.lookup key) := by
  induction entries using List.reverseRecOn with
  | nil => rfl
  | append_singleton entries e ih =>
      rw [List.foldl_append, ih, List.foldl_cons, List.foldl_nil, setNamed_map (nodup_keys entries),
        keys_append]
      refine List.map_congr_left fun key _ => ?_
      rw [List.reverse_append, List.reverse_singleton, List.singleton_append, lookup_cons_eq]

end Setting

namespace Settings

variable {homes : Homes}

/-- Setting a value changes a setting if the value is valid for it. -/
theorem get_set (s : Settings) (key : String) {value : Option String}
    (trimmed : ∀ word, value = some word → trim word.toList = word.toList) (name : SettingName) :
    ((s.set homes key value).toOption.getD s).get name =
      (value.bind fun word => Setting.valid? homes name (key, word)).getD (s.get name) := by
  simp only [Setting.valid?_mk]
  unfold set
  -- which setting the key names has no part in the argument, nor have the words for values
  generalize SettingName.ofKey? key = known
  cases known with
  | none => cases value <;> simp [Except.toOption]
  | some named =>
      cases value with
      | none => simp [Except.toOption]
      | some word =>
          have same : String.ofList (trim word.toList) = word := by
            rw [trimmed word rfl, String.ofList_toList]
          simp only [same, Option.bind_some]
          cases named with
          | colorizeOutput =>
              simp only [SettingName.read?]
              generalize boolOfWord? word = flag
              cases flag <;> cases name <;> simp [Except.toOption, get]
          | historyFile | benchmarkStore =>
              generalize changed : Path.ofString (homes.expand word) = p
              cases name <;> simp [SettingName.read?, Except.toOption, get, changed]

theorem apply_cons (s : Settings) (key : String) (value : Option String)
    (l : List (String × Option String)) :
    (s.apply homes ((key, value) :: l)).1 =
      (((s.set homes key value).toOption.getD s).apply homes l).1 := by
  rw [Settings.apply]
  cases s.set homes key value <;> rfl

/-- A setting has the last of the values that are valid for it. -/
theorem get_apply (s : Settings) {l : List (String × Option String)}
    (trimmed : ∀ e ∈ l, ∀ word, e.2 = some word → trim word.toList = word.toList)
    (name : SettingName) :
    (s.apply homes l).1.get name =
      (l.filterMap fun e =>
        e.2.bind fun word => Setting.valid? homes name (e.1, word)).getLast?.getD (s.get name) := by
  induction l generalizing s with
  | nil => rfl
  | cons e l ih =>
      obtain ⟨key, value⟩ := e
      obtain ⟨first, later⟩ := List.forall_mem_cons.mp trimmed
      rw [apply_cons, ih _ later, get_set s key first, List.filterMap_cons]
      cases value.bind fun word => Setting.valid? homes name (key, word) with
      | none => rfl
      | some x => simp [List.getLast?_cons]

end Settings

namespace Setting

variable {homes : Homes} {read : String → List (String × Option String)} {name : SettingName}
  {entries : List (String × String)}

theorem trim_value (v : Value) : trim v.chars = v.chars :=
  trim_eq_self (fun c first => (v.start c first).1) v.stop

/-- The value of a page was written as it is read. -/
theorem trim_entry {page : Page} {key word : String} (member : (key, word) ∈ page.entries) :
    trim word.toList = word.toList := by
  obtain ⟨p, -, same⟩ := List.mem_map.mp member
  rw [← (Prod.mk.inj same).2, String.toList_ofList, trim_value]

/-- A setting has the last value that its keys give, in the order of their first lines. -/
theorem get_page (reads : ReadsPages read) (page : Page) (name : SettingName) :
    (Settings.ofText homes read (String.ofList page.text)).1.get name =
      (((keys page.entries).filterMap (keyValue? homes name page.entries)).getLast?).getD
        ((Settings.default homes).get name) := by
  have trimmed : ∀ e ∈ (keys page.entries).map fun key => (key, page.entries.reverse.lookup key),
      ∀ word, e.2 = some word → trim word.toList = word.toList := by
    intro e member word given
    obtain ⟨key, -, rfl⟩ := List.mem_map.mp member
    exact trim_entry (List.mem_reverse.mp (mem_of_lookup given))
  rw [Settings.ofText, reads page, foldl_setNamed_eq, Settings.get_apply _ trimmed,
    List.filterMap_map]
  rfl

/-- A value that a key gives is that of a valid line. -/
theorem exists_of_keyValue? {key : String} {x : SettingValue}
    (given : keyValue? homes name entries key = some x) :
    ∃ value, (key, value) ∈ entries ∧ valid? homes name (key, value) = some x := by
  obtain ⟨value, found, valid⟩ := Option.bind_eq_some_iff.mp given
  exact ⟨value, List.mem_reverse.mp (mem_of_lookup found), valid⟩

theorem keyValue?_eq_none {key : String}
    (each : ∀ value, (key, value) ∈ entries → valid? homes name (key, value) = none) :
    keyValue? homes name entries key = none := by
  refine Option.eq_none_iff_forall_ne_some.mpr fun x given => ?_
  obtain ⟨value, member, valid⟩ := exists_of_keyValue? given
  rw [each value member] at valid
  cases valid

theorem keyValue?_last {before after : List (String × String)} {key : String} (value : String)
    (last : key ∉ after.map Prod.fst) :
    keyValue? homes name (before ++ (key, value) :: after) key =
      valid? homes name (key, value) := by
  have behind : after.reverse.lookup key = none := by
    refine List.lookup_eq_none_iff.mpr fun e member => bne_iff_ne.mpr fun same => last ?_
    exact same ▸ List.mem_map_of_mem (List.mem_reverse.mp member)
  have found : (before ++ (key, value) :: after).reverse.lookup key = some value := by
    rw [List.reverse_append, List.reverse_cons, List.append_assoc, List.lookup_append, behind,
      Option.none_or, List.singleton_append, lookup_cons_eq, if_pos rfl]
  rw [keyValue?, found, Option.bind_some]

/-- Where one key only gives a value, this is the last one. -/
theorem getLast?_filterMap_single {f : String → Option SettingValue} {l : List String}
    {key : String} {x : SettingValue} (member : key ∈ l) (given : f key = some x)
    (others : ∀ k ∈ l, k ≠ key → f k = none) : (l.filterMap f).getLast? = some x := by
  have some_last : x ∈ l.filterMap f := List.mem_filterMap.mpr ⟨key, member, given⟩
  obtain ⟨y, last⟩ := Option.isSome_iff_exists.mp
    (List.getLast?_isSome.mpr (List.ne_nil_of_mem some_last))
  obtain ⟨k, among, same⟩ := List.mem_filterMap.mp (List.mem_of_getLast? last)
  by_cases only : k = key
  · rw [last, ← same, only, given]
  · rw [others k among only] at same
    cases same

/-- The last valid line, with the lines before and after it. -/
theorem exists_of_lastValid? {x : SettingValue} (last : lastValid? homes name entries = some x) :
    ∃ before key value after, entries = before ++ (key, value) :: after ∧
      valid? homes name (key, value) = some x ∧ ∀ e ∈ after, valid? homes name e = none := by
  rw [lastValid?, List.getLast?_filterMap, List.findSome?_eq_some_iff] at last
  obtain ⟨after, ⟨key, value⟩, before, shape, valid, none⟩ := last
  refine ⟨before.reverse, key, value, after.reverse, ?_, valid,
    fun e member => none e (List.mem_reverse.mp member)⟩
  rw [← List.reverse_reverse entries, shape]
  simp

/-- Where nothing takes the place of the last valid line, it counts. -/
theorem getLast?_keyValue? (settled : Settled homes name entries) :
    ((keys entries).filterMap (keyValue? homes name entries)).getLast? =
      lastValid? homes name entries := by
  cases last : lastValid? homes name entries with
  | none =>
      have each := List.filterMap_eq_nil_iff.mp (List.getLast?_eq_none_iff.mp last)
      have nothing : (keys entries).filterMap (keyValue? homes name entries) = [] :=
        List.filterMap_eq_nil_iff.mpr fun _ _ => keyValue?_eq_none fun _ member => each _ member
      rw [nothing, List.getLast?_nil]
  | some x =>
      obtain ⟨before, key, value, after, rfl, valid, later⟩ := exists_of_lastValid? last
      obtain ⟨unrepeated, earlier, between, rfl, first, met⟩ :=
        settled before key value after rfl (by rw [valid]; rfl) later
      have given :
          keyValue? homes name (earlier ++ between ++ (key, value) :: after) key = some x := by
        rw [keyValue?_last value unrepeated, valid]
      have others : ∀ k, k ∉ earlier.map Prod.fst → k ≠ key →
          keyValue? homes name (earlier ++ between ++ (key, value) :: after) k = none := by
        intro k new other
        refine Option.eq_none_iff_forall_ne_some.mpr fun y taken => ?_
        obtain ⟨v, line, valid⟩ := exists_of_keyValue? taken
        rw [List.append_assoc, List.mem_append, List.mem_append, List.mem_cons] at line
        rcases line with line | line | line | line
        · exact new (List.mem_map_of_mem line)
        · rcases met _ line (by rw [valid]; rfl) with same | old | hidden
          · exact other same
          · exact new old
          · rw [hidden] at taken
            cases taken
        · exact other (Prod.mk.inj line).1
        · rw [later _ line] at valid
          cases valid
      -- the keys met from the first line with this key on stand behind all earlier ones
      have apart : keys (earlier ++ between ++ (key, value) :: after) =
          keys earlier ++ (((between ++ (key, value) :: after).map Prod.fst).removeAll
            (earlier.map Prod.fst)).eraseDups := by
        rw [keys, List.append_assoc, List.map_append, List.eraseDups_append, keys]
      rw [apart, List.filterMap_append, List.getLast?_append,
        getLast?_filterMap_single ?member given ?single, Option.some_or]
      case member => exact List.mem_eraseDups.mpr (mem_removeAll.mpr ⟨by simp, first⟩)
      case single =>
        exact fun k among => others k (mem_removeAll.mp (List.mem_eraseDups.mp among)).2

/-- Keys that differ take no place from each other. -/
theorem settled_of_nodup (once : (entries.map Prod.fst).Nodup) : Settled homes name entries := by
  rintro before key value after rfl - -
  rw [List.map_append, List.map_cons] at once
  obtain ⟨-, later, apart⟩ := List.nodup_append.mp once
  exact ⟨(List.nodup_cons.mp later).1, before, [], (List.append_nil _).symm,
    fun member => apart key member key List.mem_cons_self rfl, by simp⟩

theorem keys_filter (kept : String → Bool) (entries : List (String × String)) :
    keys (entries.filter fun e => kept e.1) = (keys entries).filter kept := by
  rw [keys, keys, ← eraseDups_filter, List.filter_map]
  rfl

theorem lookup_filter {kept : String → Bool} {key : String} (held : kept key = true)
    (entries : List (String × String)) :
    (entries.filter fun e => kept e.1).lookup key = entries.lookup key := by
  induction entries with
  | nil => rfl
  | cons e entries ih =>
      rw [lookup_cons_eq]
      by_cases same : key = e.1
      · rw [List.filter_cons_of_pos (same ▸ held), lookup_cons_eq, if_pos same, if_pos same]
      · rw [if_neg same, ← ih]
        rw [List.filter_cons]
        split
        · rw [lookup_cons_eq, if_neg same]
        · rfl

/-- A page means the same without the keys that have no valid line. -/
theorem ofText_dropped (reads : ReadsPages read) {page other : Page} {kept : String → Bool}
    (same : other.entries = page.entries.filter fun e => kept e.1)
    (invalid : ∀ e ∈ page.entries, kept e.1 = false → ∀ name, valid? homes name e = none) :
    (Settings.ofText homes read (String.ofList other.text)).1 =
      (Settings.ofText homes read (String.ofList page.text)).1 := by
  refine Settings.ext_get fun name => ?_
  have values : (keys other.entries).filterMap (keyValue? homes name other.entries) =
      (keys page.entries).filterMap (keyValue? homes name page.entries) := by
    rw [same, keys_filter, List.filterMap_filter]
    refine List.filterMap_congr fun key _ => ?_
    by_cases held : kept key = true
    · rw [if_pos held, keyValue?, keyValue?, ← List.filter_reverse, lookup_filter held]
    · rw [if_neg held, keyValue?_eq_none fun value member =>
        invalid _ member (Bool.eq_false_iff.mpr held) name]
  rw [get_page reads, get_page reads, values]

end Setting

open Setting in
/-- What a page means. Each setting has the last value that its keys give, in the order of their
first lines. This is the value of its last valid line, or the default if there is none, where
nothing takes the place of this line. Keys that have no valid line change nothing. -/
theorem settings_are_given_by_their_keys {read : String → List (String × Option String)}
    (reads : ReadsPages read) (homes : Homes) (page : Page) :
    (∀ name, (Settings.ofText homes read (String.ofList page.text)).1.get name =
      (((keys page.entries).filterMap (keyValue? homes name page.entries)).getLast?).getD
        ((Settings.default homes).get name)) ∧
    (∀ name, Settled homes name page.entries →
      (Settings.ofText homes read (String.ofList page.text)).1.get name =
        (lastValid? homes name page.entries).getD ((Settings.default homes).get name)) ∧
    ∀ (other : Page) (kept : String → Bool),
      (other.entries = page.entries.filter fun e => kept e.1) →
      (∀ e ∈ page.entries, kept e.1 = false → ∀ name, valid? homes name e = none) →
      (Settings.ofText homes read (String.ofList other.text)).1 =
        (Settings.ofText homes read (String.ofList page.text)).1 := by
  refine ⟨get_page reads page, fun name settled => ?_, fun other kept same invalid =>
    ofText_dropped reads same invalid⟩
  rw [get_page reads, getLast?_keyValue? settled]

namespace Setting

/-- A key and its value with nothing around them. -/
def Line.plain (key : Key) (value : Value) : Line :=
  .pair { key, value, exported := fun _ => rfl, marked := fun _ => rfl }

def Key.colorizeOutput : Key where
  chars := ['C', 'o', 'l', 'o', 'r', 'i', 'z', 'e', 'O', 'u', 't', 'p', 'u', 't']

def Key.historyFile : Key where
  chars := ['H', 'i', 's', 't', 'o', 'r', 'y', 'F', 'i', 'l', 'e']

def Key.snakeHistoryFile : Key where
  chars := ['h', 'i', 's', 't', 'o', 'r', 'y', '_', 'f', 'i', 'l', 'e']

/-- A comment, a word that is no truth value, an unknown key, and two spellings of one setting. -/
def Page.mixed : Page :=
  .more (.comment {} { chars := [' ', 'm', 'i', 'n', 'e'] }) .lineFeed <|
  .more (.plain .colorizeOutput { chars := ['j', 'u', 'n', 'k'] }) .lineFeed <|
  .more (.plain .historyFile { chars := ['a'] }) .lineFeed <|
  .more (.plain { chars := ['C', 'o', 'l', 'o', 'u', 'r'] } { chars := ['n', 'o'] }) .lineFeed <|
  .last (.pair {
    key := .snakeHistoryFile
    before := { chars := [' '] }
    after := { chars := [' '] }
    value := { chars := ['~', '/', 'b'] }
    rest := { gap := { chars := [' '] }, remark := some { chars := [' ', 'h', 'o', 'm', 'e'] } }
    exported := by decide })

def Page.valid : Page :=
  .more (.plain .historyFile { chars := ['a'] }) .lineFeed <|
  .last (.plain .snakeHistoryFile { chars := ['~', '/', 'b'] })

end Setting

def Homes.mine : Homes where
  own := "/home/me/"
  programDirectory := "/home/me/.config/go-test"

open Setting in
theorem settings_of_mixed_page :
    ReadsPages ofText ∧ String.ofList Page.mixed.text =
      "# mine\nColorizeOutput=junk\nHistoryFile=a\nColour=no\nhistory_file = ~/b # home" ∧
    String.ofList Page.valid.text = "HistoryFile=a\nhistory_file=~/b" ∧
    (Settings.ofText .mine ofText (String.ofList Page.mixed.text)).1.get .historyFile =
      .path (Path.ofString "/home/me/b") ∧
    (Settings.ofText .mine ofText (String.ofList Page.mixed.text)).1.get .colorizeOutput =
      .flag true ∧
    (Settings.ofText .mine ofText (String.ofList Page.valid.text)).1 =
      (Settings.ofText .mine ofText (String.ofList Page.mixed.text)).1 := by
  have given := settings_are_given_by_their_keys readsPages_ofText .mine Page.mixed
  have settled (name : SettingName) : Settled .mine name Page.mixed.entries :=
    settled_of_nodup (by decide +kernel)
  have invalid : ∀ e ∈ Page.mixed.entries,
      (e.1 == "HistoryFile" || e.1 == "history_file") = false →
        ∀ name ∈ [SettingName.colorizeOutput, .historyFile, .benchmarkStore],
          valid? .mine name e = none := by
    decide +kernel
  refine ⟨readsPages_ofText, by decide +kernel, by decide +kernel, ?_, ?_, ?_⟩
  · rw [given.2.1 .historyFile (settled _)]
    decide +kernel
  · rw [given.2.1 .colorizeOutput (settled _)]
    decide +kernel
  · exact given.2.2 Page.valid (fun key => key == "HistoryFile" || key == "history_file")
      (by decide +kernel) fun e member dropped name =>
        invalid e member dropped name (by cases name <;> simp)

open Setting in
/-- A last valid line does not count if its key is repeated without a valid value, and neither if
its key was met before that of another valid line. -/
theorem last_valid_line_does_not_count :
    (∃ page : Page, String.ofList page.text = "ColorizeOutput=false\nColorizeOutput=junk" ∧
      lastValid? .mine .colorizeOutput page.entries = some (.flag false) ∧
      (Settings.ofText .mine ofText (String.ofList page.text)).1.get .colorizeOutput = .flag true) ∧
    ∃ page : Page, String.ofList page.text = "HistoryFile=a\nhistory_file=b\nHistoryFile=c" ∧
      lastValid? .mine .historyFile page.entries = some (.path (Path.ofString "c")) ∧
      (Settings.ofText .mine ofText (String.ofList page.text)).1.get .historyFile =
        .path (Path.ofString "b") := by
  refine ⟨⟨.more (.plain .colorizeOutput { chars := ['f', 'a', 'l', 's', 'e'] }) .lineFeed <|
      .last (.plain .colorizeOutput { chars := ['j', 'u', 'n', 'k'] }), ?_⟩,
    .more (.plain .historyFile { chars := ['a'] }) .lineFeed <|
      .more (.plain .snakeHistoryFile { chars := ['b'] }) .lineFeed <|
      .last (.plain .historyFile { chars := ['c'] }), ?_⟩
  · decide +kernel
  · decide +kernel

end TestRoster
