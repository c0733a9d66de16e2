import TestRoster.Proofs.Text.Utf8
import TestRoster.Text.Portion

/-!
Portions make no difference to a text.

Bytes that are a text are read as this text, wherever the portions end, and all other bytes show a
flaw in some portion.
-/
namespace TestRoster

namespace Utf8

variable {b : UInt8} {rest left xs : List UInt8} {c : Char} {cs : List Char} {n position : Nat}
  {flaw : Flaw}

theorem readTail_append_ok (more : List UInt8) {count low high bits good value : Nat}
    (read : readTail rest count low high bits good = .ok value) :
    readTail (rest ++ more) count low high bits good = .ok value ∧ count ≤ rest.length := by
  induction count generalizing rest low high bits good with
  | zero =>
      rw [readTail] at read ⊢
      exact ⟨read, Nat.zero_le _⟩
  | succ count ih =>
      cases rest with
      | nil => cases read
      | cons b rest =>
          rw [List.cons_append, readTail]
          rw [readTail] at read
          split at read
          next within =>
            obtain ⟨same, long⟩ := ih read
            rw [if_pos within]
            exact ⟨same, Nat.succ_le_succ long⟩
          next => cases read

theorem readTail_append_error (more : List UInt8) {count low high bits good : Nat}
    (read : readTail rest count low high bits good = .error (flaw, n))
    (complete : flaw ≠ .unexpectedEnd) :
    readTail (rest ++ more) count low high bits good = .error (flaw, n) := by
  induction count generalizing rest low high bits good with
  | zero =>
      rw [readTail] at read
      cases read
  | succ count ih =>
      cases rest with
      | nil =>
          cases read
          exact absurd rfl complete
      | cons b rest =>
          rw [List.cons_append, readTail]
          rw [readTail] at read
          split at read
          next within =>
            rw [if_pos within]
            exact ih read
          next outside =>
            rw [if_neg outside]
            exact read

theorem next_append_ok (more : List UInt8) (read : next b rest = .ok (c, n)) :
    next b (rest ++ more) = .ok (c, n) ∧ n ≤ rest.length := by
  rw [next] at read ⊢
  split at read
  next => cases read
  next l lead =>
    split at read
    next value tail =>
      cases read
      obtain ⟨same, long⟩ := readTail_append_ok more tail
      simp only [same]
      exact ⟨trivial, long⟩
    next => cases read

theorem next_append_error (more : List UInt8) (read : next b rest = .error (flaw, n))
    (complete : flaw ≠ .unexpectedEnd) : next b (rest ++ more) = .error (flaw, n) := by
  rw [next] at read ⊢
  split at read
  next => exact read
  next l lead =>
    split at read
    next => cases read
    next e tail =>
      cases read
      simp only [readTail_append_error more tail complete]

theorem toOption_eq_some_iff {ε α : Type} {e : Except ε α} {x : α} :
    e.toOption = some x ↔ e = .ok x := by
  cases e <;> simp [Except.toOption]

theorem toOption_map {ε α β : Type} (f : α → β) (e : Except ε α) :
    (f <$> e).toOption = e.toOption.map f := by
  cases e <;> rfl

theorem decodeFrom_congr (position other : Nat) (bs : List UInt8) :
    (decodeFrom position bs).toOption = (decodeFrom other bs).toOption := by
  induction bs using decodeSized.induct generalizing position other with
  | case1 => rw [decodeFrom, decodeFrom]
  | case2 b rest c n read ih =>
      simp only [decodeFrom, read, toOption_map, ih (position + n + 1) (other + n + 1)]
  | case3 b rest flaw n read ih =>
      simp only [decodeFrom, read]
      rfl

theorem decodeFrom_eq_ok_iff {bs : List UInt8} :
    decodeFrom position bs = .ok cs ↔ decode? bs = .ok cs := by
  have same := decodeFrom_congr position 0 bs
  rw [decode?]
  cases first : decodeFrom position bs <;> cases second : decodeFrom 0 bs <;>
    simp_all [Except.toOption]

/-- A character that is complete is read before everything that follows it. -/
theorem decode?_cons (read : next b rest = .ok (c, n)) (more : List UInt8) :
    (decode? (b :: rest ++ more)).toOption =
      (decode? (rest.drop n ++ more)).toOption.map (c :: ·) := by
  obtain ⟨same, long⟩ := next_append_ok more read
  rw [decode?, List.cons_append, decodeFrom]
  simp only [same, toOption_map, List.drop_append_of_le_length long]
  rw [decode?, decodeFrom_congr]

/-- What a portion gives is the start of the text, and the bytes that wait are read with the
rest. -/
theorem decodeOpen_append (more : List UInt8) (read : decodeOpen position xs = .ok (cs, left)) :
    (decode? (xs ++ more)).toOption = (decode? (left ++ more)).toOption.map (cs ++ ·) := by
  induction xs using decodeSized.induct generalizing position cs left with
  | case1 =>
      rw [decodeOpen] at read
      cases read
      simp
  | case2 b rest c n step ih =>
      simp only [decodeOpen, step] at read
      cases later : decodeOpen (position + n + 1) (rest.drop n) with
      | error fault =>
          rw [later] at read
          cases read
      | ok result =>
          obtain ⟨ds, left'⟩ := result
          rw [later] at read
          cases read
          rw [decode?_cons step more, ih later, Option.map_map]
          rfl
  | case3 b rest flaw n step ih =>
      cases flaw with
      | unexpectedEnd =>
          simp only [decodeOpen, step] at read
          cases read
          simp
      | invalidStart | invalidContinuation =>
          simp only [decodeOpen, step] at read
          cases read

/-- A flaw within a portion is not healed by what follows. -/
theorem decodeOpen_error {fault : DecodeFault} (more : List UInt8)
    (read : decodeOpen position xs = .error fault) : (decode? (xs ++ more)).toOption = none := by
  induction xs using decodeSized.induct generalizing position fault with
  | case1 =>
      rw [decodeOpen] at read
      cases read
  | case2 b rest c n step ih =>
      simp only [decodeOpen, step] at read
      cases later : decodeOpen (position + n + 1) (rest.drop n) with
      | error fault =>
          rw [decode?_cons step more, ih later]
          rfl
      | ok result =>
          rw [later] at read
          cases read
  | case3 b rest flaw n step ih =>
      have flawed (complete : flaw ≠ .unexpectedEnd) :
          (decode? (b :: rest ++ more)).toOption = none := by
        rw [decode?, List.cons_append, decodeFrom, next_append_error more step complete]
        rfl
      cases flaw with
      | unexpectedEnd =>
          simp only [decodeOpen, step] at read
          cases read
      | invalidStart | invalidContinuation => exact flawed (by simp)

/-- The portions show no flaw exactly if the bytes are a text, and they give this text. -/
theorem decodePortions_eq_iff {bytes : List UInt8} :
    decodePortions left bytes = (cs, none) ↔ decode? (left ++ bytes) = .ok cs := by
  induction left, bytes using decodePortions.induct generalizing cs with
  | case1 left ds read =>
      simp only [decodePortions, List.append_nil, read]
      simp
  | case2 left fault read =>
      simp only [decodePortions, List.append_nil, read]
      simp
  | case3 left b rest ds left' read more fault later ih =>
      have whole := decodeOpen_append ((b :: rest).drop portion) read
      rw [List.append_assoc, List.take_append_drop] at whole
      rw [← toOption_eq_some_iff, whole, Option.map_eq_some_iff, decodePortions, read]
      simp only [toOption_eq_some_iff, ← ih, later, Prod.mk.injEq]
      constructor
      · rintro ⟨rfl, rfl⟩
        exact ⟨more, ⟨rfl, rfl⟩, rfl⟩
      · rintro ⟨_, ⟨rfl, rfl⟩, rfl⟩
        exact ⟨rfl, rfl⟩
  | case4 left b rest fault read =>
      have whole := decodeOpen_error ((b :: rest).drop portion) read
      rw [List.append_assoc, List.take_append_drop] at whole
      rw [← toOption_eq_some_iff, whole, decodePortions, read]
      simp

/-- A text is read before whatever follows it. -/
theorem decode?_append {bytes : List UInt8} (read : decode? bytes = .ok cs) (more : List UInt8) :
    (decode? (bytes ++ more)).toOption = (decode? more).toOption.map (cs ++ ·) := by
  induction bytes using decodeSized.induct generalizing cs with
  | case1 =>
      rw [decode?, decodeFrom] at read
      cases read
      simp
  | case2 b rest c n step ih =>
      simp only [decode?, decodeFrom, step] at read
      cases later : decodeFrom (0 + n + 1) (rest.drop n) with
      | error fault =>
          rw [later] at read
          cases read
      | ok ds =>
          rw [later] at read
          cases read
          rw [decode?_cons step more, ih (decodeFrom_eq_ok_iff.mp later), Option.map_map]
          rfl
  | case3 b rest flaw n step ih =>
      simp only [decode?, decodeFrom, step] at read
      cases read

theorem decode?_append_encode {bytes : List UInt8} (read : decode? bytes = .ok cs)
    (ds : List Char) :
    decode? (bytes ++ encode ds) = .ok (cs ++ ds) := by
  rw [← toOption_eq_some_iff, decode?_append read, decode?_encode]
  rfl

end Utf8

/-- Bytes that are read line by line without a flaw are a text, and the lines are its lines. -/
theorem linesOf_eq_iff {bytes : List UInt8} {lines : List (List Char)} :
    linesOf bytes = (lines, none) ↔
      ∃ cs, Utf8.decode? bytes = .ok cs ∧ splitLines (unifyLineEnds cs) = lines := by
  rw [linesOf]
  split
  next cs read =>
    rw [Utf8.decodePortions_eq_iff, List.nil_append] at read
    simp [read]
  next cs fault read =>
    have flawed : ∀ ds, Utf8.decode? bytes ≠ .ok ds := fun ds text => by
      have whole : Utf8.decodePortions [] bytes = (ds, none) := Utf8.decodePortions_eq_iff.mpr text
      rw [whole] at read
      cases read
    simp [flawed]

end TestRoster
