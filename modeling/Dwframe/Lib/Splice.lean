import Mathlib.Data.List.Basic

/-!
# Windows and splices of a list

A flat array seen as a list: `window` reads a run of cells at an offset and
`splice` overwrites one. The lemmas say how both act on an append, so that a
store cut into consecutive blocks can be handled one block at a time.
-/
namespace Dwframe.Lib

variable {α : Type}

/-- The `count` cells starting at `offset`. -/
def window (cells : List α) (offset count : Nat) : List α :=
  (cells.drop offset).take count

/-- Overwrite the cells starting at `offset` by `fresh`. -/
def splice (cells : List α) (offset : Nat) (fresh : List α) : List α :=
  cells.take offset ++ fresh ++ cells.drop (offset + fresh.length)

@[simp] theorem splice_nil (cells : List α) (offset : Nat) : splice cells offset [] = cells := by
  simp [splice]

theorem length_splice (cells : List α) (offset : Nat) (fresh : List α)
    (fits : offset + fresh.length ≤ cells.length) :
    (splice cells offset fresh).length = cells.length := by
  simp only [splice, List.length_append, List.length_take, List.length_drop]
  omega

/-- A window inside the first block does not see the rest. -/
theorem window_append_left (first rest : List α) (offset count : Nat)
    (fits : offset + count ≤ first.length) :
    window (first ++ rest) offset count = window first offset count := by
  simp only [window, List.drop_append, List.take_append, List.length_drop]
  rw [show count - (first.length - offset) = 0 by omega, List.take_zero, List.append_nil]

/-- A window that leaves the first block continues at the start of the rest. -/
theorem window_append_across (first rest : List α) (offset count : Nat)
    (inside : offset ≤ first.length) (leaves : first.length - offset ≤ count) :
    window (first ++ rest) offset count =
      window first offset (first.length - offset) ++
        window rest 0 (count - (first.length - offset)) := by
  have whole : (first.drop offset).length = first.length - offset := List.length_drop
  simp only [window, List.drop_append, List.take_append, whole]
  rw [show offset - first.length = 0 by omega,
    List.take_of_length_le (show (first.drop offset).length ≤ count by omega),
    List.take_of_length_le (show (first.drop offset).length ≤ first.length - offset by omega)]

/-- A splice inside the first block leaves the rest alone. -/
theorem splice_append_left (first rest : List α) (offset : Nat) (fresh : List α)
    (fits : offset + fresh.length ≤ first.length) :
    splice (first ++ rest) offset fresh = splice first offset fresh ++ rest := by
  simp only [splice, List.take_append, List.drop_append, List.append_assoc]
  rw [show offset - first.length = 0 by omega,
    show offset + fresh.length - first.length = 0 by omega]
  simp

/-- A splice that leaves the first block fills it and continues in the rest. -/
theorem splice_append_across (first rest : List α) (offset : Nat) (fresh : List α)
    (inside : offset ≤ first.length) (leaves : first.length - offset ≤ fresh.length) :
    splice (first ++ rest) offset fresh =
      splice first offset (fresh.take (first.length - offset)) ++
        splice rest 0 (fresh.drop (first.length - offset)) := by
  simp only [splice, List.take_append, List.drop_append, List.length_take, List.length_drop,
    List.append_assoc, List.take_zero, List.nil_append]
  rw [show offset - first.length = 0 by omega,
    List.drop_eq_nil_of_le (show first.length ≤ offset + fresh.length by omega),
    List.drop_eq_nil_of_le (show first.length ≤ offset + min (first.length - offset) fresh.length by
      omega),
    show offset + fresh.length - first.length = 0 + (fresh.length - (first.length - offset)) by
      omega]
  simp only [List.take_zero, List.nil_append]
  -- the two pieces of `fresh` meet at the block edge
  rw [← List.append_assoc (List.take _ fresh) (List.drop _ fresh), List.take_append_drop]

/-- A splice past the first block happens in the rest. -/
theorem splice_append_right (first rest : List α) (offset : Nat) (fresh : List α) :
    splice (first ++ rest) (first.length + offset) fresh = first ++ splice rest offset fresh := by
  simp only [splice, List.take_append, List.drop_append, List.append_assoc, Nat.add_sub_cancel_left]
  rw [List.take_of_length_le (by omega), List.drop_eq_nil_of_le (by omega),
    show first.length + offset + fresh.length - first.length = offset + fresh.length by omega]
  simp

/-- A window past the first block lies in the rest. -/
theorem window_append_right (first rest : List α) (offset count : Nat) :
    window (first ++ rest) (first.length + offset) count = window rest offset count := by
  simp only [window, List.drop_append, Nat.add_sub_cancel_left]
  rw [List.drop_eq_nil_of_le (by omega), List.nil_append]

/-- Only the first `bound` cells matter to a window that ends before `bound`. -/
theorem window_take (cells : List α) (offset count bound : Nat) (fits : offset + count ≤ bound) :
    window (cells.take bound) offset count = window cells offset count := by
  simp only [window, List.drop_take, List.take_take]
  rw [show min count (bound - offset) = count by omega]

/-- The visible part of a spliced array, when the splice starts inside it. -/
theorem take_splice (cells : List α) (offset bound : Nat) (fresh : List α)
    (start : offset ≤ bound) (fits : offset + fresh.length ≤ cells.length) :
    (splice cells offset fresh).take (max bound (offset + fresh.length)) =
      splice (cells.take bound) offset fresh := by
  simp only [splice, List.take_append, List.length_take, List.append_assoc,
    List.take_take, List.drop_take]
  rw [show min offset cells.length = offset by omega,
    show min (max bound (offset + fresh.length)) offset = offset by omega,
    show min offset bound = offset by omega, List.take_of_length_le (l := fresh) (by omega),
    show max bound (offset + fresh.length) - offset - fresh.length =
      bound - (offset + fresh.length) by omega]

theorem getElem?_window (cells : List α) (offset : Nat) {count k : Nat} (inside : k < count) :
    (window cells offset count)[k]? = cells[offset + k]? := by
  rw [window, List.getElem?_take_of_lt inside, List.getElem?_drop]

/-- Two windows side by side are one. -/
theorem window_append_window (cells : List α) (offset first second : Nat) :
    window cells offset first ++ window cells (offset + first) second =
      window cells offset (first + second) := by
  simp only [window, List.take_add, List.drop_drop]

/-- What follows from the offset on. -/
theorem drop_splice (cells : List α) (offset : Nat) (fresh : List α)
    (inside : offset ≤ cells.length) :
    (splice cells offset fresh).drop offset = fresh ++ cells.drop (offset + fresh.length) := by
  have front : (cells.take offset).length = offset := by
    rw [List.length_take, Nat.min_eq_left inside]
  rw [splice, List.append_assoc, List.drop_append_of_le_length (Nat.le_of_eq front.symm),
    List.drop_eq_nil_of_le (Nat.le_of_eq front), List.nil_append]

/-- Splicing in two pieces, one behind the other. -/
theorem splice_splice (cells : List α) (offset : Nat) (fresh more : List α)
    (inside : offset ≤ cells.length) :
    splice (splice cells offset fresh) (offset + fresh.length) more =
      splice cells offset (fresh ++ more) := by
  have front : (cells.take offset ++ fresh).length = offset + fresh.length := by
    rw [List.length_append, List.length_take, Nat.min_eq_left inside]
  have start : splice cells offset fresh =
      (cells.take offset ++ fresh) ++ cells.drop (offset + fresh.length) := rfl
  rw [start, ← front, show (cells.take offset ++ fresh).length =
    (cells.take offset ++ fresh).length + 0 from rfl, splice_append_right]
  simp only [splice, List.take_zero, List.nil_append, List.drop_drop, List.length_append,
    List.length_take, Nat.min_eq_left inside, List.append_assoc, Nat.zero_add, Nat.add_assoc]

end Dwframe.Lib
