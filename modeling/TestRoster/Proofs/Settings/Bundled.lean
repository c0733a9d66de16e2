import Mathlib.Data.List.Basic
import Mathlib.Data.List.TakeWhile
import TestRoster.Proofs.Settings.Page
import TestRoster.Settings.Line

/-!
Pages of settings are read line by line.

What is left of a text behind a line is what stood behind the line on the page, so the pairs are
read in order, each as it stands.
-/
namespace TestRoster

namespace Setting

theorem Gap.blank (g : Gap) : ∀ c ∈ g.chars, isInlineBlank c = true :=
  List.all_eq_true.mp g.blanks

theorem Remark.inline (r : Remark) : ∀ c ∈ r.chars, isLineEnd c = false := by
  simpa using r.unbroken

theorem Key.each (k : Key) : ∀ c ∈ k.chars, isKeyChar c = true :=
  List.all_eq_true.mp k.word

theorem Key.start (k : Key) : ∀ c ∈ k.chars.head?, c ≠ '\'' ∧ c ≠ '\ufeff' := by
  simpa [Option.all_eq_true] using k.unquoted

theorem Value.inline (v : Value) : ∀ c ∈ v.chars, isLineEnd c = false := by
  simpa using v.unbroken

theorem Value.unmarked (v : Value) :
    ∀ p ∈ v.chars.zip v.chars.tail, isBlank p.1 = true → p.2 ≠ '#' := by
  intro p member blank sign
  have none := List.all_eq_true.mp v.unremarked p member
  rw [blank, sign] at none
  exact absurd none (by decide)

theorem not_inlineBlank_of_lineEnd {c : Char} (h : isLineEnd c = true) :
    isInlineBlank c = false := by
  simp [isInlineBlank, h]

theorem blank_of_inlineBlank {c : Char} (h : isInlineBlank c = true) : isBlank c = true :=
  (Bool.and_eq_true _ _ ▸ h).1

theorem not_lineEnd_of_inlineBlank {c : Char} (h : isInlineBlank c = true) :
    isLineEnd c = false := by
  simpa [isInlineBlank, blank_of_inlineBlank h] using h

theorem not_blank_of_keyChar {c : Char} (h : isKeyChar c = true) : isBlank c = false := by
  simp only [isKeyChar, Bool.and_eq_true, Bool.not_eq_true'] at h
  exact h.2

theorem Gap.inline (g : Gap) : ∀ c ∈ g.chars, isLineEnd c = false :=
  fun c member => not_lineEnd_of_inlineBlank (g.blank c member)

theorem Gap.all_blank (g : Gap) : ∀ c ∈ g.chars, isBlank c = true :=
  fun c member => blank_of_inlineBlank (g.blank c member)

/-- What follows a line, and what is left behind its end. -/
inductive Ends : List Char → List Char → Prop where
  | last : Ends [] []
  | more (stop : LineBreak) (left : List Char) : Ends (stop.text ++ left) left

section

variable {tail left : List Char} (ends : Ends tail left)

include ends

theorem Ends.head {c : Char} (first : c ∈ tail.head?) : isLineEnd c = true := by
  cases ends with
  | last => cases first
  | more stop left => cases stop <;> cases first <;> rfl

theorem Ends.length_le : left.length ≤ tail.length := by
  cases ends with
  | last => exact Nat.le_refl _
  | more stop left => simp

theorem Ends.takeWhile_line {line : List Char} (inline : ∀ c ∈ line, isLineEnd c = false) :
    (line ++ tail).takeWhile (!isLineEnd ·) = line :=
  takeWhile_between (fun c member => by simp [inline c member])
    fun c first => by simp [ends.head first]

theorem Ends.dropWhile_line {line : List Char} (inline : ∀ c ∈ line, isLineEnd c = false) :
    (line ++ tail).dropWhile (!isLineEnd ·) = tail :=
  dropWhile_between (fun c member => by simp [inline c member])
    fun c first => by simp [ends.head first]

theorem Ends.skipInline_eq (gap : Gap) : skipInline (gap.chars ++ tail) = tail :=
  dropWhile_between gap.blank fun _ first => not_inlineBlank_of_lineEnd (ends.head first)

theorem Ends.lineEnd?_eq : lineEnd? tail = some left := by
  have blanks : skipInline tail = tail := ends.skipInline_eq {}
  rw [lineEnd?, blanks]
  cases ends with
  | last => rfl
  | more stop left => cases stop <;> rfl

theorem Ends.skipComment_eq : skipComment tail = tail := by
  have blanks : skipInline tail = tail := ends.skipInline_eq {}
  rw [skipComment, blanks]
  cases ends with
  | last => rfl
  | more stop left => cases stop <;> rfl

theorem Ends.skipComment_remark (r : Remark) : skipComment ('#' :: r.chars ++ tail) = tail := by
  have sign : skipInline ('#' :: r.chars ++ tail) = '#' :: (r.chars ++ tail) :=
    List.dropWhile_cons_of_neg (by decide)
  rw [skipComment, sign]
  exact ends.dropWhile_line r.inline

end

/-- Behind a blank, what is left of a value starts with no number sign. -/
theorem head_dropWhile_ne_sign {c : Char} {cs : List Char} (blank : isBlank c = true)
    (unmarked : ∀ p ∈ (c :: cs).zip cs, isBlank p.1 = true → p.2 ≠ '#') :
    (cs.dropWhile isBlank).head? ≠ some '#' := by
  induction cs generalizing c with
  | nil => simp
  | cons d ds ih =>
      rw [List.zip_cons_cons, List.forall_mem_cons] at unmarked
      by_cases next : isBlank d = true
      · rw [List.dropWhile_cons_of_pos next]
        exact ih next unmarked.2
      · rw [List.dropWhile_cons_of_neg next, List.head?_cons]
        exact fun same => unmarked.1 blank (Option.some.inj same)

theorem dropWhile_ne_nil_of_stop {cs : List Char} (given : cs ≠ [])
    (stop : ∀ c ∈ cs.getLast?, isBlank c = false) : cs.dropWhile isBlank ≠ [] := by
  intro nothing
  have last := List.getLast?_eq_some_getLast given
  have blank := List.dropWhile_eq_nil_iff.mp nothing _ (List.mem_of_getLast? last)
  rw [stop _ last] at blank
  cases blank

/-- Cutting a comment off passes over a value. -/
theorem cutComment_append {value : List Char} (tail : List Char)
    (stop : ∀ c ∈ value.getLast?, isBlank c = false)
    (unmarked : ∀ p ∈ value.zip value.tail, isBlank p.1 = true → p.2 ≠ '#') :
    cutComment (value ++ tail) = value ++ cutComment tail := by
  induction value with
  | nil => rfl
  | cons c cs ih =>
      cases cs with
      | nil => rw [List.singleton_append, cutComment, stop c rfl, Bool.false_and,
          if_neg Bool.false_ne_true, List.singleton_append]
      | cons d ds =>
          have stop' : ∀ e ∈ (d :: ds).getLast?, isBlank e = false := by simpa using stop
          have unmarked' : ∀ p ∈ (d :: ds).zip ds, isBlank p.1 = true → p.2 ≠ '#' :=
            fun p member => unmarked p (List.mem_cons_of_mem _ member)
          have kept : (isBlank c && ((d :: ds ++ tail).dropWhile isBlank).head? == some '#') =
              false := by
            by_cases blank : isBlank c = true
            · -- the value goes on, so the next character that is no blank is its own
              have head := head_dropWhile_ne_sign blank unmarked
              obtain ⟨e, es, shape⟩ := List.exists_cons_of_ne_nil
                (dropWhile_ne_nil_of_stop (List.cons_ne_nil d ds) stop')
              rw [shape] at head
              rw [List.dropWhile_append, shape]
              simpa [blank] using head
            · simp [blank]
          rw [List.cons_append, cutComment, kept, if_neg Bool.false_ne_true, ih stop' unmarked']
          rfl

theorem cutComment_gap (g : Gap) : cutComment g.chars = g.chars := by
  have each := g.all_blank
  generalize g.chars = cs at each
  induction cs with
  | nil => rfl
  | cons c cs ih =>
      have later := fun d member => each d (List.mem_cons_of_mem c member)
      rw [cutComment, List.dropWhile_eq_nil_iff.mpr later, ih later]
      simp

theorem cutComment_remark (g : Gap) (apart : g.chars ≠ []) (remark : List Char) :
    cutComment (g.chars ++ '#' :: remark) = [] := by
  obtain ⟨c, cs, shape⟩ := List.exists_cons_of_ne_nil apart
  have each := g.all_blank
  rw [shape, List.forall_mem_cons] at each
  have sign : (cs ++ '#' :: remark).dropWhile isBlank = '#' :: remark :=
    dropWhile_between each.2 fun c first => Option.some.inj first ▸ by decide
  rw [shape, List.cons_append, cutComment, each.1, sign]
  rfl

theorem trimEnd_append {value blanks : List Char} (stop : ∀ c ∈ value.getLast?, isBlank c = false)
    (each : ∀ c ∈ blanks, isBlank c = true) : trimEnd (value ++ blanks) = value := by
  rw [trimEnd, List.reverse_append, dropWhile_between, List.reverse_reverse]
  · simpa using each
  · simpa using stop

/-- A value is what is left of the text behind the equals sign, without blanks and comment. -/
theorem trimEnd_cutComment (v : Value) (r : Rest) :
    trimEnd (cutComment (v.chars ++ r.text)) = v.chars := by
  rw [cutComment_append _ v.stop v.unmarked, Rest.text]
  cases remark : r.remark with
  | none =>
      simp only
      rw [cutComment_gap]
      exact trimEnd_append v.stop r.gap.all_blank
  | some words =>
      simp only
      rw [cutComment_remark _ (r.apart (by rw [remark]; rfl))]
      exact trimEnd_append v.stop (by simp)

theorem Rest.inline (r : Rest) : ∀ c ∈ r.text, isLineEnd c = false := by
  rw [Rest.text]
  cases r.remark with
  | none => exact r.gap.inline
  | some words =>
      simp only [List.forall_mem_append, List.forall_mem_cons]
      exact ⟨r.gap.inline, by decide, words.inline⟩

def behindSign? (cs : List Char) : Option (List Char × List Char) :=
  value? (decide ((skipInline cs).length < cs.length)) (skipInline cs)

/-- What starts with no quote, and with a number sign only right behind the equals sign, is a value
without quotes. -/
theorem value?_eq_unquoted {spaced : Bool} {cs : List Char}
    (start : ∀ c ∈ cs.head?, c ≠ '\'' ∧ c ≠ '"') (marked : cs.head? = some '#' → spaced = false) :
    value? spaced cs = value?.unquoted cs := by
  unfold value?
  split
  next => rw [marked rfl, if_neg Bool.false_ne_true]
  next => exact absurd rfl (start _ rfl).1
  next => exact absurd rfl (start _ rfl).2
  next => rfl

section

variable {tail left : List Char} (ends : Ends tail left)

include ends

theorem unquoted_value (v : Value) (r : Rest) :
    value?.unquoted (v.chars ++ r.text ++ tail) = some (v.chars, tail) := by
  have line := ends.takeWhile_line (List.forall_mem_append.mpr ⟨v.inline, r.inline⟩)
  rw [value?.unquoted, line, List.drop_left, trimEnd_cutComment]

theorem value?_tail (spaced : Bool) : value? spaced tail = some ([], tail) := by
  have head : ∀ c ∈ tail.head?, c ≠ '\'' ∧ c ≠ '"' ∧ c ≠ '#' := by
    intro c first
    have stop := ends.head first
    refine ⟨?_, ?_, ?_⟩ <;> · rintro rfl; cases stop
  rw [value?_eq_unquoted (fun c first => ⟨(head c first).1, (head c first).2.1⟩)
    fun sign => absurd rfl (head _ sign).2.2]
  exact unquoted_value ends { chars := [] } {}

theorem behindSign?_value (p : Pair) {c : Char} {cs : List Char} (given : p.value.chars = c :: cs) :
    behindSign? (p.given ++ tail) = some (p.value.chars, tail) := by
  have shape : p.given ++ tail = p.after.chars ++ (p.value.chars ++ p.rest.text ++ tail) := by
    simp only [Pair.given, List.append_assoc]
  have start := p.value.start c (by rw [given]; rfl)
  have head : (p.value.chars ++ p.rest.text ++ tail).head? = some c := by rw [given]; rfl
  have blanks : skipInline (p.given ++ tail) = p.value.chars ++ p.rest.text ++ tail := by
    rw [shape]
    refine dropWhile_between p.after.blank fun d first => ?_
    rw [head] at first
    cases first
    rw [isInlineBlank, start.1, Bool.false_and]
  rw [behindSign?, blanks, value?_eq_unquoted, unquoted_value ends]
  · intro d first
    rw [head] at first
    cases first
    exact start.2
  · intro sign
    rw [head] at sign
    have close := p.marked (by rw [given]; exact sign)
    rw [shape, close, List.nil_append]
    exact decide_eq_false (Nat.lt_irrefl _)

theorem behindSign?_blanks (p : Pair) (nothing : p.value.chars = []) (bare : p.rest.remark = none) :
    behindSign? (p.given ++ tail) = some ([], tail) := by
  have shape : p.given ++ tail = p.after.chars ++ p.rest.gap.chars ++ tail := by
    rw [Pair.given, nothing, Rest.text, bare, List.append_nil]
  have blanks : skipInline (p.given ++ tail) = tail := by
    rw [shape]
    exact dropWhile_between (List.forall_mem_append.mpr ⟨p.after.blank, p.rest.gap.blank⟩)
      fun c first => not_inlineBlank_of_lineEnd (ends.head first)
  rw [behindSign?, blanks, value?_tail ends]

omit ends in
theorem behindSign?_remark (p : Pair) {words : Remark} (nothing : p.value.chars = [])
    (remark : p.rest.remark = some words) :
    behindSign? (p.given ++ tail) = some ([], '#' :: words.chars ++ tail) := by
  have apart := p.rest.apart (by rw [remark]; rfl)
  have shape : p.given ++ tail =
      (p.after.chars ++ p.rest.gap.chars) ++ ('#' :: words.chars ++ tail) := by
    rw [Pair.given, nothing, Rest.text, remark]
    simp only [List.append_nil, List.append_assoc]
  have blanks : skipInline (p.given ++ tail) = '#' :: words.chars ++ tail := by
    rw [shape]
    exact dropWhile_between (List.forall_mem_append.mpr ⟨p.after.blank, p.rest.gap.blank⟩)
      fun c first => Option.some.inj first ▸ by decide
  have spaced : ('#' :: words.chars ++ tail).length < (p.given ++ tail).length := by
    have long := List.length_pos_iff.mpr apart
    simp only [shape, List.length_append]
    omega
  rw [behindSign?, blanks, decide_eq_true spaced]
  rfl

/-- The value behind the equals sign is read, and what is left ends the line. -/
theorem behindSign?_given (p : Pair) :
    ∃ left', behindSign? (p.given ++ tail) = some (p.value.chars, left') ∧
      lineEnd? (skipComment left') = some left := by
  cases given : p.value.chars with
  | cons c cs =>
      rw [← given]
      exact ⟨tail, behindSign?_value ends p given, by rw [ends.skipComment_eq, ends.lineEnd?_eq]⟩
  | nil =>
      cases remark : p.rest.remark with
      | none =>
          exact ⟨tail, behindSign?_blanks ends p given remark,
            by rw [ends.skipComment_eq, ends.lineEnd?_eq]⟩
      | some words =>
          exact ⟨_, behindSign?_remark p given remark,
            by rw [ends.skipComment_remark, ends.lineEnd?_eq]⟩

end

theorem Key.takeWhile_isKeyChar (k : Key) (gap : Gap) (cs : List Char) :
    (k.chars ++ (gap.chars ++ '=' :: cs)).takeWhile isKeyChar = k.chars := by
  refine takeWhile_between k.each fun c first => ?_
  cases blanks : gap.chars with
  | nil =>
      rw [blanks] at first
      cases first
      rfl
  | cons d ds =>
      rw [blanks] at first
      cases first
      have blank := blank_of_inlineBlank (gap.blank c (by rw [blanks]; exact List.mem_cons_self))
      rw [isKeyChar, blank, Bool.not_true, Bool.and_false]

theorem Pair.text_append (p : Pair) (tail : List Char) :
    p.text ++ tail = p.key.chars ++ (p.before.chars ++ '=' :: (p.given ++ tail)) := by
  simp only [Pair.text, List.append_assoc, List.cons_append]

/-- The key of a pair is not the word `export` in front of another key. -/
theorem skipExport_pair (p : Pair) (tail : List Char) :
    skipExport (p.text ++ tail) = p.text ++ tail := by
  unfold skipExport
  split
  next c rest same =>
    refine if_neg fun blank => ?_
    rw [p.text_append] at same
    have word : p.key.chars = ['e', 'x', 'p', 'o', 'r', 't'] := by
      have other : isKeyChar c = false := by
        rw [isKeyChar, blank_of_inlineBlank blank, Bool.not_true, Bool.and_false]
      have taken : (['e', 'x', 'p', 'o', 'r', 't'] ++ c :: rest).takeWhile isKeyChar =
          ['e', 'x', 'p', 'o', 'r', 't'] :=
        takeWhile_between (List.all_eq_true.mp (by decide)) fun d first =>
          Option.some.inj first ▸ other
      rw [← p.key.takeWhile_isKeyChar p.before (p.given ++ tail), same]
      exact taken
    rw [word, p.exported word] at same
    have sign : some '=' = some c := congrArg (fun cs => (cs.drop 6).head?) same
    rw [← Option.some.inj sign] at blank
    exact absurd blank (by decide)
  next => rfl

theorem key?_pair (p : Pair) (tail : List Char) :
    key? (p.text ++ tail) =
      some (some p.key.chars, p.before.chars ++ '=' :: (p.given ++ tail)) := by
  have taken := p.key.takeWhile_isKeyChar p.before (p.given ++ tail)
  obtain ⟨c, cs, shape⟩ := List.exists_cons_of_ne_nil p.key.given
  have keyed := p.key.each c (by rw [shape]; exact List.mem_cons_self)
  have start := p.key.start c (by rw [shape]; rfl)
  rw [p.text_append]
  unfold key?
  split
  next rest same =>
    rw [shape] at same
    rw [(List.cons.inj same).1] at keyed
    exact absurd keyed (by decide)
  next rest same =>
    rw [shape] at same
    exact absurd (List.cons.inj same).1 start.1
  next => simp only [taken, if_neg p.key.given, List.drop_left]

theorem binding_pair (p : Pair) {tail left : List Char} (ends : Ends tail left) :
    binding (p.text ++ tail) = .ok (some p.key.chars, some p.value.chars, left) := by
  have sign : skipInline (p.before.chars ++ '=' :: (p.given ++ tail)) = '=' :: (p.given ++ tail) :=
    dropWhile_between p.before.blank fun c first => Option.some.inj first ▸ by decide
  obtain ⟨left', read, stop⟩ := behindSign?_given ends p
  rw [behindSign?] at read
  simp only [binding, skipExport_pair, key?_pair, sign, read, stop]

theorem binding_comment (r : Remark) {tail left : List Char} (ends : Ends tail left) :
    binding ('#' :: r.chars ++ tail) = .ok (none, none, left) := by
  have blanks : skipInline ('#' :: r.chars ++ tail) = '#' :: r.chars ++ tail :=
    List.dropWhile_cons_of_neg (by decide)
  have whole : skipExport ('#' :: r.chars ++ tail) = '#' :: r.chars ++ tail := rfl
  have unkeyed : key? ('#' :: r.chars ++ tail) = some (none, '#' :: r.chars ++ tail) := rfl
  have stop := ends.skipComment_remark r
  simp only [binding, whole, unkeyed, blanks]
  split
  next same => exact absurd (List.cons.inj same).1 (by decide)
  next => rw [stop, ends.lineEnd?_eq]

/-- Blanks between lines are passed over. -/
theorem bindings_blanks (fuel : Nat) {blanks : List Char} (each : ∀ c ∈ blanks, isBlank c = true)
    (cs : List Char) : bindings fuel (blanks ++ cs) = bindings fuel cs := by
  cases fuel with
  | zero => rfl
  | succ fuel => rw [bindings, bindings, List.dropWhile_append_of_pos each]

theorem bindings_pair (fuel : Nat) (p : Pair) {tail left : List Char} (ends : Ends tail left) :
    bindings (fuel + 1) ((Line.pair p).text ++ tail) =
      (p.key.chars, some p.value.chars) :: bindings fuel left := by
  obtain ⟨c, cs, shape⟩ := List.exists_cons_of_ne_nil p.key.given
  have solid := not_blank_of_keyChar (p.key.each c (by rw [shape]; exact List.mem_cons_self))
  have start : (p.text ++ tail).dropWhile isBlank = p.text ++ tail := by
    rw [p.text_append, shape]
    exact List.dropWhile_cons_of_neg (by simp [solid])
  have full : p.text ++ tail ≠ [] := by
    rw [p.text_append, shape]
    exact List.cons_ne_nil _ _
  rw [Line.text, List.append_assoc, bindings_blanks _ p.indent.all_blank, bindings, start]
  split
  next nothing => exact absurd nothing full
  next => rw [binding_pair p ends]

theorem bindings_comment (fuel : Nat) (indent : Gap) (r : Remark) {tail left : List Char}
    (ends : Ends tail left) :
    bindings (fuel + 1) ((Line.comment indent r).text ++ tail) = bindings fuel left := by
  have start : ('#' :: r.chars ++ tail).dropWhile isBlank = '#' :: r.chars ++ tail :=
    List.dropWhile_cons_of_neg (by decide)
  rw [Line.text, List.append_assoc, bindings_blanks _ indent.all_blank, bindings, start]
  split
  next nothing => cases nothing
  next => rw [binding_comment r ends]

theorem bindings_nil (fuel : Nat) : bindings fuel [] = [] := by
  cases fuel <;> rfl

def Line.bindings (line : Line) : List (List Char × Option (List Char)) :=
  line.pair?.toList.map fun p => (p.key.chars, some p.value.chars)

/-- A line is read, and what follows it is left with enough fuel. -/
theorem bindings_line (line : Line) {tail left : List Char} (ends : Ends tail left) {fuel : Nat}
    (enough : (line.text ++ tail).length < fuel) :
    ∃ fuel', left.length < fuel' ∧
      bindings fuel (line.text ++ tail) = line.bindings ++ bindings fuel' left := by
  have shorter := ends.length_le
  obtain ⟨fuel, rfl⟩ : ∃ n, fuel = n + 1 := ⟨fuel - 1, by omega⟩
  cases line with
  | blank gap =>
      refine ⟨fuel + 1, ?_, ?_⟩
      · rw [List.length_append] at enough
        omega
      · have passed : bindings (fuel + 1) tail = bindings (fuel + 1) left := by
          cases ends with
          | last => rfl
          | more stop left =>
              exact bindings_blanks _ (List.all_eq_true.mp (by cases stop <;> decide)) left
        rw [Line.text, bindings_blanks _ gap.all_blank, passed]
        rfl
  | comment indent remark =>
      refine ⟨fuel, ?_, bindings_comment fuel indent remark ends⟩
      simp only [Line.text, List.length_append, List.length_cons] at enough
      omega
  | pair p =>
      refine ⟨fuel, ?_, bindings_pair fuel p ends⟩
      simp only [Line.text, Pair.text, List.length_append, List.length_cons] at enough
      omega

/-- A page is read line by line. -/
theorem bindings_page (page : Page) {fuel : Nat} (enough : page.text.length < fuel) :
    bindings fuel page.text = page.lines.flatMap Line.bindings := by
  induction page generalizing fuel with
  | last line =>
      have whole : line.text = line.text ++ [] := (List.append_nil _).symm
      rw [Page.text, whole] at enough
      obtain ⟨fuel', -, read⟩ := bindings_line line .last enough
      rw [Page.text, whole, read, bindings_nil]
      simp [Page.lines]
  | more line stop page ih =>
      rw [Page.text, List.append_assoc] at enough
      obtain ⟨fuel', enough', read⟩ := bindings_line line (.more stop page.text) enough
      rw [Page.text, List.append_assoc, read, ih enough', Page.lines, List.flatMap_cons]

/-- A byte order mark stands before no line, so none is dropped. -/
theorem head_page_ne_mark (page : Page) : ∀ c ∈ page.text.head?, c ≠ '\ufeff' := by
  have behind : ∀ {blanks cs : List Char}, (∀ c ∈ blanks, isBlank c = true) →
      (∀ c ∈ cs.head?, c ≠ '\ufeff') → ∀ c ∈ (blanks ++ cs).head?, c ≠ '\ufeff' := by
    intro blanks cs each next c first
    cases blanks with
    | nil => exact next c first
    | cons d ds =>
        cases first
        rintro rfl
        exact absurd (each _ List.mem_cons_self) (by decide)
  have line : ∀ (line : Line) (cs : List Char), (∀ c ∈ cs.head?, c ≠ '\ufeff') →
      ∀ c ∈ (line.text ++ cs).head?, c ≠ '\ufeff' := by
    intro line cs next
    cases line with
    | blank gap => exact behind gap.all_blank next
    | comment indent remark =>
        rw [Line.text, List.append_assoc]
        exact behind indent.all_blank fun c first => Option.some.inj first ▸ by decide
    | pair p =>
        rw [Line.text, List.append_assoc]
        refine behind p.indent.all_blank fun c first => ?_
        obtain ⟨d, ds, shape⟩ := List.exists_cons_of_ne_nil p.key.given
        rw [p.text_append, shape] at first
        exact (p.key.start c (by rw [shape]; exact first)).2
  cases page with
  | last l =>
      rw [Page.text, ← List.append_nil l.text]
      exact line l [] (by simp)
  | more l stop page =>
      rw [Page.text, List.append_assoc]
      exact line l _ fun c first => by cases stop <;> cases first <;> decide

theorem readsPages_ofText : ReadsPages ofText := by
  intro page
  have whole : ofText (String.ofList page.text) =
      (bindings (page.text.length + 1) page.text).foldl
        (fun settings b => setNamed (String.ofList b.1) (b.2.map String.ofList) settings) [] := by
    rw [ofText, String.toList_ofList]
    split
    next rest marked =>
      exact absurd rfl (head_page_ne_mark page _ (by rw [marked]; rfl))
    next => rfl
  have lines : page.lines.flatMap Line.bindings =
      (page.lines.filterMap Line.pair?).map fun p => (p.key.chars, some p.value.chars) := by
    rw [List.filterMap_eq_flatMap_toList, List.map_flatMap]
    rfl
  rw [whole, bindings_page page (Nat.lt_succ_self _), lines, Page.entries, List.foldl_map,
    List.foldl_map]
  rfl

end Setting

end TestRoster
