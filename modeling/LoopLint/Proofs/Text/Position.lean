import LoopLint.Text.Offset
import Mathlib.Data.List.Induction
import Mathlib.Tactic.Common

/-!
# Offsets, pieces and lines of a text

Positions in a text are counted in bytes, and not every number of bytes is the position of a
character (`Text.IsOffset`).  At an offset a text falls into two parts, and what is read from a
range that lies in one part does not depend on the other.

The row and the column of an offset are worked out character by character.  `Text.exists_onLine`
says what they are: the number of line feeds before the offset, and its distance from the start of
the line.
-/

namespace LoopLint.Text

/-- The offset falls between two characters of the text or at one of its ends. -/
def IsOffset (cs : List Char) (offset : Nat) : Prop :=
  byteLength (takeBytes offset cs) = offset

instance (cs : List Char) : DecidablePred (IsOffset cs) := fun offset =>
  inferInstanceAs (Decidable (byteLength (takeBytes offset cs) = offset))

/-! ### Pieces of a text -/

section Pieces

variable {as bs : List Char} {k : Nat} {r : TextRange}

/-- The first zero bytes of a text hold nothing. -/
lemma takeBytes_zero (cs : List Char) : takeBytes 0 cs = [] := by
  cases cs <;> rfl

/-- The start of a text is an offset. -/
lemma isOffset_zero (cs : List Char) : IsOffset cs 0 := by
  rw [IsOffset, takeBytes_zero, byteLength_nil]

/-- A start of a text that ends in its first part is a start of that part. -/
lemma takeBytes_append_of_le (h : k ≤ byteLength as) : takeBytes k (as ++ bs) = takeBytes k as := by
  induction as generalizing k with
  | nil =>
    obtain rfl : k = 0 := Nat.le_zero.mp h
    rw [takeBytes_zero, takeBytes_zero]
  | cons a as ih =>
    rw [byteLength_cons] at h
    rw [List.cons_append, takeBytes, takeBytes, ih (by omega)]

/-- What stands behind an offset in the first part of a text goes on with the second part. -/
lemma dropBytes_append_of_le (h : k ≤ byteLength as) :
    dropBytes k (as ++ bs) = dropBytes k as ++ bs := by
  induction as generalizing k with
  | nil =>
    obtain rfl : k = 0 := Nat.le_zero.mp h
    cases bs <;> rfl
  | cons a as ih =>
    rw [byteLength_cons] at h
    rw [List.cons_append, dropBytes, dropBytes]
    split
    · rfl
    · exact ih (by omega)

/-- An offset in the second part of a text, counted from the start of the first part. -/
lemma dropBytes_byteLength_add (as bs : List Char) (k : Nat) :
    dropBytes (byteLength as + k) (as ++ bs) = dropBytes k bs := by
  induction as with
  | nil => rw [byteLength_nil, Nat.zero_add, List.nil_append]
  | cons a as ih =>
    have hpos := a.utf8Size_pos
    rw [byteLength_cons, List.cons_append, dropBytes, if_neg (by omega),
      show a.utf8Size + byteLength as + k - a.utf8Size = byteLength as + k by omega, ih]

/-- A start of a text that ends in its second part has all of the first part. -/
lemma takeBytes_byteLength_add (as bs : List Char) (k : Nat) :
    takeBytes (byteLength as + k) (as ++ bs) = as ++ takeBytes k bs := by
  induction as with
  | nil => rw [byteLength_nil, Nat.zero_add, List.nil_append, List.nil_append]
  | cons a as ih =>
    have hpos := a.utf8Size_pos
    rw [byteLength_cons, List.cons_append, takeBytes, if_neg (by omega),
      show a.utf8Size + byteLength as + k - a.utf8Size = byteLength as + k by omega, ih,
      List.cons_append]

/-- The first part of a text. -/
lemma takeBytes_byteLength (as bs : List Char) : takeBytes (byteLength as) (as ++ bs) = as := by
  have htake := takeBytes_byteLength_add as bs 0
  rwa [Nat.add_zero, takeBytes_zero, List.append_nil] at htake

/-- A longer start of a text is a shorter one, followed by the piece between their ends. -/
lemma takeBytes_append_slice {cs : List Char} {i j : Nat} (hi : IsOffset cs i) (hij : i ≤ j) :
    takeBytes i cs ++ slice cs ⟨i, j⟩ = takeBytes j cs := by
  have htake := takeBytes_byteLength_add (takeBytes i cs) (dropBytes i cs) (j - i)
  have hlength : byteLength (takeBytes i cs) = i := hi
  rw [takeBytes_append_dropBytes, hlength, Nat.add_sub_of_le hij] at htake
  exact htake.symm

/-- What stands in the first part of a text does not depend on the second part. -/
lemma slice_append_of_le (hstart : IsOffset (as ++ bs) r.start) (hle : r.start ≤ r.stop)
    (hstop : r.stop ≤ byteLength as) : slice (as ++ bs) r = slice as r := by
  have hcut : byteLength (takeBytes r.start as) + byteLength (dropBytes r.start as) =
      byteLength as := by
    rw [← byteLength_append, takeBytes_append_dropBytes]
  rw [IsOffset, takeBytes_append_of_le (Nat.le_trans hle hstop)] at hstart
  rw [slice, slice, dropBytes_append_of_le (Nat.le_trans hle hstop),
    takeBytes_append_of_le (by omega)]

/-- What stands in the second part of a text does not depend on the first part. -/
lemma slice_byteLength_add (as bs : List Char) (i j : Nat) :
    slice (as ++ bs) ⟨byteLength as + i, byteLength as + j⟩ = slice bs ⟨i, j⟩ := by
  rw [slice, slice, dropBytes_byteLength_add, Nat.add_sub_add_left]

/-- A piece in the middle of a text. -/
lemma slice_middle (as cs bs : List Char) :
    slice (as ++ cs ++ bs) ⟨byteLength as, byteLength (as ++ cs)⟩ = cs := by
  have hdrop := dropBytes_byteLength_add as (cs ++ bs) 0
  have hzero : dropBytes 0 (cs ++ bs) = cs ++ bs := by cases cs ++ bs <;> rfl
  rw [Nat.add_zero, hzero] at hdrop
  rw [slice, byteLength_append, Nat.add_sub_cancel_left, List.append_assoc, hdrop,
    takeBytes_byteLength]

/-- A text that is not empty has a byte. -/
lemma byteLength_pos {cs : List Char} (h : cs ≠ []) : 0 < byteLength cs := by
  obtain ⟨c, cs, rfl⟩ := List.exists_cons_of_ne_nil h
  have hpos := c.utf8Size_pos
  rw [byteLength_cons]
  omega

end Pieces

/-! ### Lines and columns -/

/-- The offset stands on the line that begins at the byte `lineStart`, behind `row` line feeds. -/
def OnLine (cs : List Char) (offset row lineStart : Nat) : Prop :=
  ∃ earlier line later, cs = earlier ++ line ++ later ∧
    (earlier = [] ∨ earlier.getLast? = some '\n') ∧ '\n' ∉ line ∧
    byteLength earlier = lineStart ∧ byteLength (earlier ++ line) = offset ∧
    earlier.count '\n' = row

/-- Every text ends with a line that may be empty. -/
lemma exists_last_line (cs : List Char) :
    ∃ earlier line, cs = earlier ++ line ∧ (earlier = [] ∨ earlier.getLast? = some '\n') ∧
      '\n' ∉ line := by
  induction cs using List.reverseRecOn with
  | nil => exact ⟨[], [], rfl, .inl rfl, List.not_mem_nil⟩
  | append_singleton cs c ih =>
    by_cases hc : c = '\n'
    · refine ⟨cs ++ [c], [], (List.append_nil _).symm, .inr ?_, List.not_mem_nil⟩
      rw [hc, List.getLast?_concat]
    · obtain ⟨earlier, line, rfl, hearlier, hline⟩ := ih
      refine ⟨earlier, line ++ [c], List.append_assoc .., hearlier, ?_⟩
      rw [List.mem_append, List.mem_singleton, not_or]
      exact ⟨hline, Ne.symm hc⟩

/-- Each line feed starts a row. -/
lemma row_foldl_advance (cs : List Char) (p : Point) :
    (cs.foldl advance p).row = p.row + cs.count '\n' := by
  induction cs generalizing p with
  | nil => rfl
  | cons c cs ih =>
    rw [List.foldl_cons, ih, List.count_cons, advance]
    by_cases hc : c = '\n'
    · simp only [hc, if_true, beq_self_eq_true]
      omega
    · simp [hc]

/-- Along a line the row stays and the column counts the bytes. -/
lemma foldl_advance_of_not_mem {line : List Char} (h : '\n' ∉ line) (p : Point) :
    line.foldl advance p = ⟨p.row, p.column + byteLength line⟩ := by
  induction line generalizing p with
  | nil => rfl
  | cons c line ih =>
    rw [List.mem_cons, not_or] at h
    rw [List.foldl_cons, ih h.2, advance, if_neg (Ne.symm h.1), byteLength_cons, Nat.add_assoc]

/-- The point behind some lines and the beginning of another one. -/
lemma endPoint_append {earlier line : List Char}
    (hearlier : earlier = [] ∨ earlier.getLast? = some '\n') (hline : '\n' ∉ line) :
    endPoint (earlier ++ line) = ⟨earlier.count '\n', byteLength line⟩ := by
  have hrow : (endPoint earlier).row = earlier.count '\n' := by
    rw [endPoint, row_foldl_advance, Nat.zero_add]
  have hcolumn : (endPoint earlier).column = 0 := by
    rcases hearlier with rfl | hlast
    · rfl
    · obtain ⟨init, rfl⟩ := List.getLast?_eq_some_iff.mp hlast
      rw [endPoint, List.foldl_append, List.foldl_cons, List.foldl_nil, advance, if_pos rfl]
  have happend : endPoint (earlier ++ line) = line.foldl advance (endPoint earlier) :=
    List.foldl_append
  rw [happend, foldl_advance_of_not_mem hline, hrow, hcolumn, Nat.zero_add]

/-- The row of an offset is the number of line feeds before it, and its column is its distance from
the start of the line. -/
theorem exists_onLine {cs : List Char} {offset : Nat} (h : IsOffset cs offset) :
    ∃ row lineStart, OnLine cs offset row lineStart ∧
      pointAt cs offset = ⟨row, offset - lineStart⟩ := by
  obtain ⟨earlier, line, hbefore, hearlier, hline⟩ := exists_last_line (takeBytes offset cs)
  have hoffset : byteLength (earlier ++ line) = offset := by
    rw [← hbefore]
    exact h
  have hcs : cs = earlier ++ line ++ dropBytes offset cs := by
    rw [← hbefore, takeBytes_append_dropBytes]
  refine ⟨earlier.count '\n', byteLength earlier,
    ⟨earlier, line, dropBytes offset cs, hcs, hearlier, hline, rfl, hoffset, rfl⟩, ?_⟩
  have hcolumn : byteLength line = offset - byteLength earlier := by
    rw [byteLength_append] at hoffset
    omega
  rw [pointAt, hbefore, endPoint_append hearlier hline, hcolumn]

end LoopLint.Text
