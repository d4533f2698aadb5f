import Dwframe.ByteArray.Buffers
import Dwframe.Lib.Monad

/-!
# Writing ahead of the cursor

`Wrote` says what a state is after some bytes were written at the cursor, `Ahead` that some bytes
are the next unread ones. Back where the writing started, what was written is ahead; readers then
take it from the front.
-/
namespace Dwframe.ByteArray

open Lib

/-! ### The cursor -/

/-- The state with the cursor `n` bytes further. -/
def advance (s : ByteArray) (n : Nat) : ByteArray :=
  { s with position := s.position + n, cur := s.nodeAt ((s.position + n) / s.baseSize) }

@[simp] theorem advance_position (s : ByteArray) (n : Nat) :
    (s.advance n).position = s.position + n := rfl

@[simp] theorem advance_size (s : ByteArray) (n : Nat) : (s.advance n).size = s.size := rfl

@[simp] theorem advance_capacity (s : ByteArray) (n : Nat) :
    (s.advance n).capacity = s.capacity := rfl

@[simp] theorem advance_contents (s : ByteArray) (n : Nat) :
    (s.advance n).contents = s.contents := rfl

@[simp] theorem advance_advance (s : ByteArray) (m n : Nat) :
    (s.advance m).advance n = s.advance (m + n) := by
  simp only [advance, nodeAt, Nat.add_assoc]

/-- The next unread bytes of `s` begin with `bytes`. -/
structure Ahead (s : ByteArray) (bytes : List UInt8) : Prop where
  wellFormed : WellFormed s
  ahead : bytes <+: s.contents.drop s.position

namespace Ahead

variable {s : ByteArray} {bytes more : List UInt8}

theorem enough (ahead : Ahead s bytes) : s.position + bytes.length ≤ s.size := by
  have length := ahead.ahead.length_le
  have position_le := ahead.wellFormed.position_le
  rw [List.length_drop, ahead.wellFormed.length_contents] at length
  omega

theorem left (ahead : Ahead s (bytes ++ more)) : Ahead s bytes :=
  ⟨ahead.wellFormed, (List.prefix_append bytes more).trans ahead.ahead⟩

theorem right (ahead : Ahead s (bytes ++ more)) : Ahead (s.advance bytes.length) more := by
  have fits := ahead.enough
  rw [List.length_append] at fits
  refine ⟨ahead.wellFormed.moved (by omega) ahead.wellFormed.size_le, ?_⟩
  obtain ⟨rest, whole⟩ := ahead.ahead
  refine ⟨rest, ?_⟩
  rw [advance_contents, advance_position, ← List.drop_drop, ← whole, List.append_assoc,
    List.drop_left]

theorem read (ahead : Ahead s bytes) (some_byte : bytes ≠ []) :
    read bytes.length s = .ok bytes (s.advance bytes.length) := by
  have fits := ahead.enough
  have positive := List.length_pos_iff.mpr some_byte
  rw [read_eq ahead.wellFormed positive (by omega)]
  have next : window s.contents s.position bytes.length = bytes :=
    (List.prefix_iff_eq_take.mp ahead.ahead).symm
  rw [next]
  rfl

end Ahead

/-! ### Written bytes -/

theorem ceilDiv_add_mul {base : Nat} (positive : 0 < base) (size blocks : Nat) :
    ceilDiv (size + blocks * base) base = ceilDiv size base + blocks := by
  rw [ceilDiv, ceilDiv, ← Nat.add_mul_div_right _ _ positive]
  congr 1
  omega

theorem ceilDiv_mono {a b : Nat} (le : a ≤ b) (base : Nat) : ceilDiv a base ≤ ceilDiv b base :=
  Nat.div_le_div_right (by omega)

theorem ceilDiv_mul_le {size blocks base : Nat} (positive : 0 < base)
    (fits : size ≤ blocks * base) : ceilDiv size base * base ≤ blocks * base := by
  apply Nat.mul_le_mul_right
  rw [ceilDiv, ← Nat.lt_succ_iff, Nat.div_lt_iff_lt_mul positive, Nat.succ_mul]
  omega

/-- The capacity grows by whole blocks, and by no more of them than are needed. -/
theorem addCapacity_capacity {s : ByteArray} (wf : WellFormed s) (size : Nat) :
    (s.addCapacity size).capacity =
      max s.capacity (ceilDiv (s.position + size) s.baseSize * s.baseSize) := by
  have le := wf.position_le_capacity
  have cap := wf.getCapacity_eq
  have unchanged (fits : s.position + size ≤ s.capacity) :
      s.capacity = max s.capacity (ceilDiv (s.position + size) s.baseSize * s.baseSize) := by
    rw [wf.capacity_eq] at fits ⊢
    exact (Nat.max_eq_left (ceilDiv_mul_le wf.positive fits)).symm
  unfold addCapacity
  split
  next nothing => exact unchanged (by omega)
  next =>
    simp only [ge_iff_le]
    split
    next enough => exact unchanged (by omega)
    next short =>
      have needed : s.position + size = size - s.getCapacity + s.nodes.length * s.baseSize := by
        rw [← wf.capacity_eq]
        omega
      rw [needed, ceilDiv_add_mul wf.positive, Nat.add_mul, ← wf.capacity_eq]
      simp only
      omega

/-- `s'` is `s` after `buf` was written at the cursor. -/
structure Wrote (buf : List UInt8) (s s' : ByteArray) : Prop where
  wellFormed : WellFormed s'
  baseSize : s'.baseSize = s.baseSize
  endian : s'.endian = s.endian
  capacity : s'.capacity =
    max s.capacity (ceilDiv (s.position + buf.length) s.baseSize * s.baseSize)
  position : s'.position = s.position + buf.length
  size : s'.size = max s.size (s.position + buf.length)
  contents : s'.contents = splice s.contents s.position buf

theorem addCapacity_endian (s : ByteArray) (size : Nat) :
    (s.addCapacity size).endian = s.endian := by
  unfold addCapacity
  split
  next => rfl
  next =>
    simp only [ge_iff_le]
    split <;> rfl

theorem write_kept {s s' : ByteArray} {buf : List UInt8} (ran : write buf s = .ok () s') :
    s'.endian = s.endian ∧ s'.capacity = (s.addCapacity buf.length).capacity := by
  unfold write at ran
  split at ran
  next empty =>
    cases ran
    simp [addCapacity, empty]
  next =>
    have endian := addCapacity_endian s buf.length
    revert endian ran
    generalize s.addCapacity buf.length = grown
    intro ran endian
    cases found : grown.cur with
    | none => simp [found] at ran
    | some i =>
      simp only [found] at ran
      cases looped : writeLoop (grown.nodes.drop i) (grown.position % grown.baseSize) buf with
      | error fault => simp [looped] at ran
      | ok out =>
        simp only [looped] at ran
        cases ran
        exact ⟨endian, rfl⟩

theorem write_wrote {s : ByteArray} (wf : WellFormed s) (buf : List UInt8) :
    ∃ s', write buf s = .ok () s' ∧ Wrote buf s s' := by
  obtain ⟨s', ran, wf', base, position, size, contents⟩ := write_spec wf buf
  obtain ⟨endian, capacity⟩ := write_kept ran
  rw [addCapacity_capacity wf] at capacity
  exact ⟨s', ran, wf', base, endian, capacity, position, size, contents⟩

namespace Wrote

variable {s s' s'' : ByteArray} {buf more : List UInt8}

theorem nothing (wf : WellFormed s) : Wrote [] s s := by
  obtain ⟨s', ran, wrote⟩ := write_wrote wf []
  cases ran
  exact wrote

theorem append (wf : WellFormed s) (first : Wrote buf s s') (second : Wrote more s' s'') :
    Wrote (buf ++ more) s s'' := by
  have position : s'.position + more.length = s.position + (buf ++ more).length := by
    rw [first.position, List.length_append, Nat.add_assoc]
  have grows := Nat.mul_le_mul_right s.baseSize
    (ceilDiv_mono (show s.position + buf.length ≤ s.position + (buf ++ more).length by
      rw [List.length_append]; omega) s.baseSize)
  constructor
  · exact second.wellFormed
  · rw [second.baseSize, first.baseSize]
  · rw [second.endian, first.endian]
  · rw [second.capacity, position, first.baseSize, first.capacity, Nat.max_assoc,
      Nat.max_eq_right grows]
  · rw [second.position, position]
  · rw [second.size, position, first.size, List.length_append]
    omega
  · have inside : s.position ≤ s.contents.length := by
      rw [wf.length_contents]
      exact wf.position_le
    rw [second.contents, first.contents, first.position]
    exact splice_splice _ _ _ _ inside

/-- The cursor is left at the end of the capacity only where the bytes end with a block. -/
theorem full_iff (wrote : Wrote buf s s') (positive : 0 < s.baseSize) :
    s'.position = s'.capacity ↔
      s.capacity ≤ s.position + buf.length ∧ s.baseSize ∣ s.position + buf.length := by
  have room := le_ceilDiv_mul (s.position + buf.length) positive
  rw [wrote.position, wrote.capacity]
  constructor
  · intro full
    have whole : s.position + buf.length =
        ceilDiv (s.position + buf.length) s.baseSize * s.baseSize := by omega
    exact ⟨by omega, _, whole.trans (Nat.mul_comm _ _)⟩
  · rintro ⟨used, blocks, whole⟩
    rw [Nat.mul_comm] at whole
    have tight := ceilDiv_mul_le positive (Nat.le_of_eq whole)
    omega

/-- Back where the writing started, the bytes are the next ones to read. -/
theorem ahead (wf : WellFormed s) (wrote : Wrote buf s s') :
    ∃ back, setPosition s.position s' = .ok () back ∧ Ahead back buf ∧
      back.position = s.position ∧ back.size = s'.size ∧ back.endian = s.endian ∧
      back.capacity = s'.capacity := by
  have size_le := wrote.wellFormed.size_le
  have size := wrote.size
  have position_le := wf.position_le
  have inside : s.position ≤ s.contents.length := by
    rw [wf.length_contents]
    exact position_le
  have moved := setPosition_eq wrote.wellFormed (show s.position ≤ s'.capacity by omega)
  rw [Nat.max_eq_left (by omega)] at moved
  refine ⟨_, moved, ⟨wrote.wellFormed.moved (by omega) size_le, ?_⟩, rfl, rfl, wrote.endian, rfl⟩
  -- the move changes neither the blocks nor the size
  change buf <+: s'.contents.drop s.position
  rw [wrote.contents, drop_splice _ _ _ inside]
  exact List.prefix_append _ _

end Wrote

/-! ### Writers and readers -/

theorem advance_zero {s : ByteArray} (wf : WellFormed s) : s.advance 0 = s := by
  cases s
  simpa [advance, nodeAt] using wf.cur_eq.symm

/-- From every state `x` writes `bytes`, which may depend on the byte order. -/
def Writes (x : M Unit) (bytes : Endian → List UInt8) : Prop :=
  ∀ s, WellFormed s → ∃ s', x s = .ok () s' ∧ Wrote (bytes s.endian) s s'

/-- Wherever `bytes` are ahead, `x` takes them and returns `value`. -/
def Reads {α : Type} (x : M α) (bytes : Endian → List UInt8) (value : α) : Prop :=
  ∀ s, Ahead s (bytes s.endian) → x s = .ok value (s.advance (bytes s.endian).length)

namespace Writes

theorem write (buf : List UInt8) : Writes (write buf) fun _ => buf :=
  fun _ wf => write_wrote wf buf

theorem pure : Writes (pure ()) fun _ => [] := fun s wf => ⟨s, rfl, .nothing wf⟩

theorem bind {x : M Unit} {y : Unit → M Unit} {bytes more : Endian → List UInt8}
    (first : Writes x bytes) (second : Writes (y ()) more) :
    Writes (x >>= y) fun order => bytes order ++ more order := by
  intro s wf
  obtain ⟨s', ran, wrote⟩ := first s wf
  obtain ⟨s'', ran', wrote'⟩ := second s' wrote.wellFormed
  refine ⟨s'', ?_, ?_⟩
  · rw [bind_apply, ran]
    exact ran'
  · rw [wrote.endian] at wrote'
    exact wrote.append wf wrote'

end Writes

namespace Reads

variable {α β : Type}

theorem pure (value : α) : Reads (pure value : M α) (fun _ => []) value := by
  intro s ahead
  rw [pure_apply, List.length_nil, advance_zero ahead.wellFormed]

theorem map {x : M α} {bytes : Endian → List UInt8} {a : α} (took : Reads x bytes a)
    (f : α → β) : Reads (do return f (← x)) bytes (f a) := by
  intro s ahead
  rw [bind_apply, took s ahead]
  rfl

theorem bind {x : M α} {y : α → M β} {bytes more : Endian → List UInt8} {a : α} {b : β}
    (first : Reads x bytes a) (second : Reads (y a) more b) :
    Reads (x >>= y) (fun order => bytes order ++ more order) b := by
  intro s ahead
  have rest := second (s.advance (bytes s.endian).length) ahead.right
  rw [advance_advance, ← List.length_append] at rest
  rw [bind_apply, first s ahead.left]
  exact rest

end Reads

end Dwframe.ByteArray
