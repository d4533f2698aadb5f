import Dwframe.ByteArray.Buffers

/-!
# Reading at a position

The two members that take a position are copies of the ones that read at the cursor, and each kept
a part of the cursor. `read` walks from the cursor's block and takes from `position` only the
offset in a block. `getReadBuffers` walks to `position` and cuts the length to what is left behind
the cursor. Both are right at the cursor.
-/
namespace Dwframe.ByteArray

open Lib

variable {s : ByteArray}

/-- The bytes asked for, or `out_of_range` where some of them are not stored. -/
def ReadsAt (s : ByteArray) (n p : Nat) : Prop :=
  s.readAt n p =
    if p ≤ s.size ∧ n ≤ s.size - p then .ok (window s.contents p n) else .error .outOfRange

/-- The `iovec`s lead to the bytes asked for, as far as they are stored. -/
def BuffersAt (s : ByteArray) (len p : Nat) : Prop :=
  ∃ buffers count, s.getReadBuffersAt len p = .ok (buffers, count) ∧
    gather s.nodes buffers = window s.contents p (min len (s.size - p))

/-- Where `read` at `p` really starts: the offset of `p`, in the block of the cursor. -/
def startAt (s : ByteArray) (p : Nat) : Nat := s.position / s.baseSize * s.baseSize + p % s.baseSize

/-- The same chain with other bytes in it. -/
def holding (s : ByteArray) (bytes : Nat → UInt8) : ByteArray :=
  { s with
    nodes := (List.range s.nodes.length).map fun k =>
      newNode (fun k j => bytes (k * s.baseSize + j)) k s.baseSize }

@[simp] theorem holding_baseSize (bytes : Nat → UInt8) :
    (s.holding bytes).baseSize = s.baseSize := rfl

@[simp] theorem holding_position (bytes : Nat → UInt8) :
    (s.holding bytes).position = s.position := rfl

@[simp] theorem holding_size (bytes : Nat → UInt8) : (s.holding bytes).size = s.size := rfl

/-- One byte unlike the others. -/
def mark (place a : Nat) : UInt8 := if a = place then 1 else 0

/-! ### Past the last block -/

theorem readLoop_beyond {base : Nat} (positive : 0 < base) (nodes : List Node) (npos size : Nat)
    (uniform : Uniform base nodes) (start : npos < base)
    (beyond : nodes.length * base < npos + size) (some_byte : 0 < size) :
    readLoop nodes npos size = .error .nullNode := by
  induction nodes generalizing npos size with
  | nil => rfl
  | cons node rest ih =>
    obtain ⟨head, tail⟩ := uniform.cons
    rw [List.length_cons, Nat.succ_mul] at beyond
    have across : ¬base - npos ≥ size := by omega
    have taken : npos + (base - npos) ≤ base := by omega
    have rest_beyond := ih 0 (size - (base - npos)) tail positive (by omega) (by omega)
    simp only [readLoop, Node.copyOut, head, if_neg across, if_neg (Nat.ne_of_gt some_byte),
      if_pos taken, rest_beyond, bind, Except.bind]

theorem buffersLoop_beyond {base : Nat} (nodes : List Node) (number npos len : Nat)
    (uniform : Uniform base nodes) (start : npos < base)
    (beyond : nodes.length * base < npos + len) (some_byte : 0 < len) :
    buffersLoop nodes number npos len = .error .nullNode := by
  induction nodes generalizing number npos len with
  | nil => rfl
  | cons node rest ih =>
    obtain ⟨head, tail⟩ := uniform.cons
    rw [List.length_cons, Nat.succ_mul] at beyond
    have across : ¬base - npos ≥ len := by omega
    have rest_beyond :=
      ih (number + 1) 0 (len - (base - npos)) tail (by omega) (by omega) (by omega)
    simp only [buffersLoop, head, if_neg across, if_neg (Nat.ne_of_gt some_byte), rest_beyond, bind,
      Except.bind]

/-! ### What the calls do -/

namespace WellFormed

/-- The memory from a block on. -/
theorem drop_block (wf : WellFormed s) {block : Nat} (inside : block ≤ s.nodes.length)
    (offset count : Nat) :
    window (memory (s.nodes.drop block)) offset count =
        window (memory s.nodes) (block * s.baseSize + offset) count ∧
      (s.nodes.drop block).length * s.baseSize + block * s.baseSize = s.capacity := by
  obtain ⟨split_memory, front⟩ := memory_split wf.uniform block inside
  constructor
  · rw [split_memory, ← front, window_append_right]
  · rw [List.length_drop, ← Nat.add_mul, Nat.sub_add_cancel inside, wf.capacity_eq]

/-- The cursor's block: null at the end of the capacity, else a block of the chain. -/
theorem cursor_block (wf : WellFormed s) :
    s.position / s.baseSize ≤ s.nodes.length ∧
      (s.position / s.baseSize < s.nodes.length ↔ s.position < s.capacity) := by
  constructor
  · rw [← Nat.mul_div_cancel s.nodes.length wf.positive, ← wf.capacity_eq]
    exact Nat.div_le_div_right wf.position_le_capacity
  · rw [Nat.div_lt_iff_lt_mul wf.positive, wf.capacity_eq]

/-- Where it does not throw, `read` at `p` copies from the cursor's block on. -/
theorem readAt_eq (wf : WellFormed s) {n p : Nat} (passes : n ≤ sizeSub s.size p) :
    s.readAt n p =
      if s.position < s.capacity ∧ (n = 0 ∨ s.startAt p + n ≤ s.capacity) then
        .ok (window (memory s.nodes) (s.startAt p) n)
      else .error .nullNode := by
  have start := Nat.mod_lt p wf.positive
  obtain ⟨block_le, block_lt⟩ := wf.cursor_block
  obtain ⟨bytes, whole⟩ := wf.drop_block block_le (p % s.baseSize) n
  have uniform := wf.uniform.drop (s.position / s.baseSize)
  rw [readAt, if_neg (Nat.not_lt.mpr passes), wf.cur_eq, nodeAt, startAt, ← bytes]
  by_cases room : s.position < s.capacity
  · have inside := block_lt.mpr room
    rw [if_pos inside]
    by_cases fits : n = 0 ∨ s.position / s.baseSize * s.baseSize + p % s.baseSize + n ≤ s.capacity
    · rw [if_pos ⟨room, fits⟩]
      have some_node : s.nodes.drop (s.position / s.baseSize) ≠ [] := by simpa using inside
      have one := Nat.mul_le_mul_right s.baseSize
        (show 1 ≤ (s.nodes.drop (s.position / s.baseSize)).length from
          List.length_pos_iff.mpr some_node)
      simp only [readLoop_spec wf.positive _ _ n uniform start (by omega) some_node, Except.map]
    · obtain ⟨some_byte, short⟩ := not_or.mp fits
      rw [if_neg fun both => fits both.2]
      simp only [readLoop_beyond wf.positive _ _ n uniform start (by omega)
        (Nat.pos_of_ne_zero some_byte), Except.map]
  · rw [if_neg (fun inside => room (block_lt.mp inside)), if_neg fun both => room both.1]

/-- The walk from the block of `p` gives the bytes from `p` on, or runs off the chain. -/
theorem buffersLoop_at (wf : WellFormed s) {p want : Nat} (stored : p ≤ s.size)
    (some_byte : 0 < want) :
    (p + want ≤ s.capacity → ∃ buffers,
      buffersLoop (s.nodes.drop (p / s.baseSize)) (p / s.baseSize) (p % s.baseSize) want =
        .ok buffers ∧ gather s.nodes buffers = window (memory s.nodes) p want) ∧
    (s.capacity < p + want →
      buffersLoop (s.nodes.drop (p / s.baseSize)) (p / s.baseSize) (p % s.baseSize) want =
        .error .nullNode) := by
  have start := Nat.mod_lt p wf.positive
  have split_p := Nat.div_add_mod' p s.baseSize
  have uniform := wf.uniform.drop (p / s.baseSize)
  have block_le : p / s.baseSize ≤ s.nodes.length := by
    rw [← Nat.mul_div_cancel s.nodes.length wf.positive, ← wf.capacity_eq]
    exact Nat.div_le_div_right (Nat.le_trans stored wf.size_le)
  obtain ⟨-, whole⟩ := wf.drop_block block_le (p % s.baseSize) want
  constructor
  · intro fits
    -- `want` bytes need a block to be in
    have some_node : s.nodes.drop (p / s.baseSize) ≠ [] := by
      intro empty
      rw [empty, List.length_nil, Nat.zero_mul] at whole
      omega
    obtain ⟨buffers, ran, total, covers⟩ :=
      buffersLoop_spec _ (p / s.baseSize) _ want uniform start (by omega) some_node
    rw [split_p] at covers
    have gathered := gather_eq covers wf.uniform (by rw [total, ← wf.capacity_eq]; exact fits)
    rw [total] at gathered
    exact ⟨buffers, ran, gathered⟩
  · intro beyond
    exact buffersLoop_beyond _ _ _ want uniform start (by omega) some_byte

/-- The length that `getReadBuffers` at `p` delivers is the one for the cursor. -/
theorem buffersAt_iff (wf : WellFormed s) {p : Nat} (stored : p ≤ s.size) (len : Nat) :
    s.BuffersAt len p ↔ min len (s.size - s.position) = min len (s.size - p) := by
  have size_le := wf.size_le
  have position_le := wf.position_le
  have contents := wf.length_contents
  have length : ∀ count, count ≤ s.size - p → (window s.contents p count).length = count := by
    intro count le
    rw [window, List.length_take, List.length_drop, contents]
    omega
  -- the length is cut at the bytes behind the cursor, wherever `p` is
  have cut : (if len > s.getReadSize then s.getReadSize else len) =
      min len (s.size - s.position) := by
    rw [wf.getReadSize_eq]
    split <;> omega
  rw [BuffersAt, getReadBuffersAt]
  simp only [cut]
  generalize min len (s.size - s.position) = want
  by_cases nothing : want = 0
  · subst nothing
    simp only [if_true, Except.ok.injEq, Prod.mk.injEq]
    constructor
    · rintro ⟨_, _, ⟨rfl, rfl⟩, bytes⟩
      rw [← length (min len (s.size - p)) (Nat.min_le_right ..), ← bytes]
      rfl
    · intro same
      refine ⟨[], 0, ⟨rfl, rfl⟩, ?_⟩
      rw [← same]
      rfl
  · rw [if_neg nothing]
    obtain ⟨inside, beyond⟩ := buffersLoop_at wf stored (Nat.pos_of_ne_zero nothing)
    by_cases fits : p + want ≤ s.capacity
    · obtain ⟨buffers, ran, gathered⟩ := inside fits
      simp only [ran, bind, Except.bind, Except.ok.injEq, Prod.mk.injEq]
      constructor
      · rintro ⟨_, _, ⟨rfl, rfl⟩, bytes⟩
        have both := congrArg List.length bytes
        rw [length _ (Nat.min_le_right ..), gathered, window, List.length_take, List.length_drop,
          length_memory wf.uniform, ← wf.capacity_eq] at both
        omega
      · intro same
        refine ⟨buffers, want, ⟨rfl, rfl⟩, ?_⟩
        rw [gathered, ← same, ByteArray.contents, window_take _ _ _ _ (by omega)]
    · simp only [beyond (Nat.lt_of_not_le fits), bind, Except.bind]
      refine iff_of_false (by simp) ?_
      omega

/-- `read` at `p` is right where it throws as it should, or finds the right bytes. -/
theorem readsAt_iff (wf : WellFormed s) (n p : Nat) :
    s.ReadsAt n p ↔
      if p ≤ s.size then
        n ≤ s.size - p → s.position < s.capacity ∧ (n = 0 ∨ s.startAt p + n ≤ s.capacity) ∧
          window (memory s.nodes) (s.startAt p) n = window s.contents p n
      else 2 ^ 64 - (p - s.size) < n := by
  have throws : ∀ {n}, ¬n ≤ sizeSub s.size p → s.readAt n p = .error .outOfRange := fun more =>
    if_pos (Nat.lt_of_not_le more)
  rw [ReadsAt]
  by_cases stored : p ≤ s.size
  · simp only [stored, true_and, if_true]
    by_cases enough : n ≤ s.size - p
    · rw [if_pos enough, wf.readAt_eq (by rwa [sizeSub_of_le stored]), imp_iff_right enough]
      by_cases inside : s.position < s.capacity ∧ (n = 0 ∨ s.startAt p + n ≤ s.capacity)
      · rw [if_pos inside, Except.ok.injEq]
        exact ⟨fun same => ⟨inside.1, inside.2, same⟩, fun all => all.2.2⟩
      · rw [if_neg inside]
        exact iff_of_false (by simp) fun all => inside ⟨all.1, all.2.1⟩
    · rw [if_neg enough, throws (by rwa [sizeSub_of_le stored])]
      exact iff_of_true rfl fun le => absurd le enough
  · -- the difference of sizes wraps
    have wrapped : sizeSub s.size p = 2 ^ 64 - (p - s.size) := by
      rw [sizeSub, if_neg stored]
      omega
    simp only [stored, false_and, if_false]
    by_cases passes : n ≤ sizeSub s.size p
    · rw [wf.readAt_eq passes]
      refine iff_of_false ?_ (by omega)
      split <;> simp
    · rw [throws passes]
      exact iff_of_true rfl (by omega)

end WellFormed

/-! ### Other bytes in the same chain -/

theorem memory_holding (bytes : Nat → UInt8) :
    memory (s.holding bytes).nodes = (List.range (s.nodes.length * s.baseSize)).map bytes := by
  simp only [holding]
  induction s.nodes.length with
  | zero => simp [memory]
  | succ count ih =>
    rw [List.range_succ, List.map_append, memory_append, ih, Nat.succ_mul, List.range_add,
      List.map_append, List.map_map]
    simp [memory, newNode]

theorem WellFormed.holding (wf : WellFormed s) (bytes : Nat → UInt8) :
    WellFormed (s.holding bytes) where
  positive := wf.positive
  rooted := by simpa [ByteArray.holding] using wf.rooted
  uniform := by
    intro node member
    obtain ⟨k, -, rfl⟩ := List.mem_map.mp member
    simp [newNode, Node.size, ByteArray.holding]
  capacity_eq := by simpa [ByteArray.holding] using wf.capacity_eq
  position_le := wf.position_le
  size_le := wf.size_le
  cur_eq := by simpa [ByteArray.holding, nodeAt] using wf.cur_eq

theorem WellFormed.getElem?_holding (wf : WellFormed s) (bytes : Nat → UInt8) {a : Nat}
    (inside : a < s.capacity) : (memory (s.holding bytes).nodes)[a]? = some (bytes a) := by
  rw [memory_holding, List.getElem?_map, List.getElem?_range (wf.capacity_eq ▸ inside),
    Option.map_some]

/-- Whatever the bytes, `read` at `p` is right exactly in the cursor's block. -/
theorem WellFormed.readsAt_holding_iff (wf : WellFormed s) (n p : Nat) :
    (∀ bytes, (s.holding bytes).ReadsAt n p) ↔
      if p ≤ s.size then
        n ≤ s.size - p →
          s.position < s.capacity ∧ (n = 0 ∨ p / s.baseSize = s.position / s.baseSize)
      else 2 ^ 64 - (p - s.size) < n := by
  have size_le := wf.size_le
  have shape : ∀ bytes, (s.holding bytes).ReadsAt n p ↔
      if p ≤ s.size then
        n ≤ s.size - p → s.position < s.capacity ∧ (n = 0 ∨ s.startAt p + n ≤ s.capacity) ∧
          window (memory (s.holding bytes).nodes) (s.startAt p) n =
            window (s.holding bytes).contents p n
      else 2 ^ 64 - (p - s.size) < n := fun bytes => (wf.holding bytes).readsAt_iff n p
  simp only [shape]
  by_cases stored : p ≤ s.size
  · simp only [stored, if_true]
    constructor
    · intro right enough
      obtain ⟨room, fits, -⟩ := right (fun _ => 0) enough
      refine ⟨room, ?_⟩
      by_contra apart
      obtain ⟨some_byte, other⟩ := not_or.mp apart
      have positive := Nat.pos_of_ne_zero some_byte
      -- a byte of its own at `p` tells the two places apart
      obtain ⟨-, -, same⟩ := right (mark p) enough
      have first := congrArg (·[0]?) same
      have differ : s.startAt p ≠ p := by
        intro equal
        apply other
        rw [← equal, startAt, Nat.add_comm, Nat.add_mul_div_right _ _ wf.positive,
          Nat.div_eq_of_lt (Nat.mod_lt p wf.positive), Nat.zero_add]
      have visible : p < (s.holding (mark p)).size := show p < s.size by omega
      simp only [getElem?_window _ _ positive, Nat.add_zero, ByteArray.contents,
        List.getElem?_take_of_lt visible, wf.getElem?_holding _ (show s.startAt p < _ by omega),
        wf.getElem?_holding _ (show p < _ by omega), mark, if_neg differ, if_true] at first
      revert first
      decide
    · rintro here bytes enough
      obtain ⟨room, block⟩ := here enough
      refine ⟨room, ?_⟩
      rcases block with rfl | block
      · exact ⟨.inl rfl, rfl⟩
      · have start : s.startAt p = p := by rw [startAt, ← block, Nat.div_add_mod']
        rw [start]
        refine ⟨.inr (by omega), ?_⟩
        have visible : p + n ≤ (s.holding bytes).size := show p + n ≤ s.size by omega
        exact (window_take _ _ _ _ visible).symm
  · simp only [stored, if_false]
    exact ⟨fun right => right fun _ => 0, fun more _ => more⟩

/-! ### The outcome -/

/-- `read` and `getReadBuffers` at a position: when a call gives the stored bytes. For `read` that
is a matter of the bytes, unless `p` lies in the cursor's block; for `getReadBuffers` the length
must be one that the bytes behind the cursor do not cut. -/
theorem positioned_iff (wf : WellFormed s) (n p : Nat) :
    (s.ReadsAt n p ↔
        if p ≤ s.size then
          n ≤ s.size - p → s.position < s.capacity ∧ (n = 0 ∨ s.startAt p + n ≤ s.capacity) ∧
            window (memory s.nodes) (s.startAt p) n = window s.contents p n
        else 2 ^ 64 - (p - s.size) < n) ∧
      ((∀ bytes, (s.holding bytes).ReadsAt n p) ↔
        if p ≤ s.size then
          n ≤ s.size - p →
            s.position < s.capacity ∧ (n = 0 ∨ p / s.baseSize = s.position / s.baseSize)
        else 2 ^ 64 - (p - s.size) < n) ∧
      (p ≤ s.size → ∀ len, s.BuffersAt len p ↔
        p = s.position ∨ len ≤ s.size - s.position ∧ len ≤ s.size - p) := by
  refine ⟨wf.readsAt_iff n p, wf.readsAt_holding_iff n p, fun stored len => ?_⟩
  have position_le := wf.position_le
  rw [wf.buffersAt_iff stored]
  omega

/-- Three bytes in blocks of two: at the cursor, in the first block, both calls are right. -/
theorem positioned_at_cursor :
    (run (create (fun _ _ => 0) 2) [.write [1, 2, 3], .setPosition 0]).ReadsAt 3 0 ∧
      (run (create (fun _ _ => 0) 2) [.write [1, 2, 3], .setPosition 0]).BuffersAt 9 0 := by
  have wf : WellFormed (run (create (fun _ _ => 0) 2) [.write [1, 2, 3], .setPosition 0]) :=
    (run_wellFormed (create_wellFormed _ (show 0 < 2 by decide))
      [.write [1, 2, 3], .setPosition 0] (by simp [Op.Allowed])).1
  obtain ⟨read, -, buffers⟩ := positioned_iff wf 3 0
  refine ⟨read.mpr ?_, (buffers (Nat.zero_le _) 9).mpr (.inl rfl)⟩
  decide

/-- With the cursor in the first block, the last byte is read as the first, and only two of three
bytes come in buffers from the second block on; past the end nothing is thrown. -/
theorem positioned_elsewhere :
    ¬(run (create (fun _ _ => 0) 2) [.write [1, 2, 3], .setPosition 1]).ReadsAt 1 2 ∧
      ¬(run (create (fun _ _ => 0) 2) [.write [1, 2, 3], .setPosition 1]).ReadsAt 1 4 ∧
      ¬(run (create (fun _ _ => 0) 2) [.write [1, 2, 3], .setPosition 1]).BuffersAt 3 0 := by
  refine ⟨?_, ?_, ?_⟩
  · unfold ReadsAt
    decide
  · unfold ReadsAt
    decide
  · rintro ⟨buffers, count, ran, bytes⟩
    cases ran
    revert bytes
    decide

end Dwframe.ByteArray
