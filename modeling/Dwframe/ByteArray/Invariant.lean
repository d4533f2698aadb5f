import Dwframe.ByteArray.Chain

/-!
# The representation invariant of `ByteArray`

`WellFormed` ties the counters, the chain and the cached block pointer together.
Every operation has one lemma here that says what it returns from a well-formed
state and that the state after it is well formed again; nothing later unfolds an
operation. `reachable_wellFormed` is the invariant over whole runs.
-/
namespace Dwframe.ByteArray

open Lib

structure WellFormed (s : ByteArray) : Prop where
  positive : 0 < s.baseSize
  rooted : s.nodes ≠ []
  uniform : Uniform s.baseSize s.nodes
  capacity_eq : s.capacity = s.nodes.length * s.baseSize
  position_le : s.position ≤ s.size
  size_le : s.size ≤ s.capacity
  /-- `m_cur` is node number `m_position / m_baseSize`, null past the last node. -/
  cur_eq : s.cur = s.nodeAt (s.position / s.baseSize)

/-- The bytes stored so far, whatever the blocks hold past `m_size`. -/
def contents (s : ByteArray) : List UInt8 := (memory s.nodes).take s.size

namespace WellFormed

variable {s : ByteArray}

theorem position_le_capacity (wf : WellFormed s) : s.position ≤ s.capacity :=
  Nat.le_trans wf.position_le wf.size_le

theorem getReadSize_eq (wf : WellFormed s) : s.getReadSize = s.size - s.position :=
  sizeSub_of_le wf.position_le

theorem getCapacity_eq (wf : WellFormed s) : s.getCapacity = s.capacity - s.position :=
  sizeSub_of_le wf.position_le_capacity

theorem length_contents (wf : WellFormed s) : s.contents.length = s.size := by
  rw [contents, List.length_take, length_memory wf.uniform, ← wf.capacity_eq]
  exact Nat.min_eq_left wf.size_le

/-- Below the capacity the cursor's block exists. -/
theorem cur_some (wf : WellFormed s) (room : s.position < s.capacity) :
    s.cur = some (s.position / s.baseSize) ∧ s.position / s.baseSize < s.nodes.length := by
  have inside : s.position / s.baseSize < s.nodes.length := by
    rw [Nat.div_lt_iff_lt_mul wf.positive, ← wf.capacity_eq]
    exact room
  exact ⟨by rw [wf.cur_eq, nodeAt, if_pos inside], inside⟩

/-- `m_cur` is null exactly when the cursor stands at the end of the capacity. -/
theorem cur_none_iff (wf : WellFormed s) : s.cur = none ↔ s.position = s.capacity := by
  have le := wf.position_le_capacity
  constructor
  · intro null
    by_contra differ
    have found := (wf.cur_some (by omega)).1
    simp [null] at found
  · intro full
    rw [wf.cur_eq, nodeAt, full, wf.capacity_eq, Nat.mul_div_cancel _ wf.positive]
    simp

/-- What lies from the cursor's block on, seen from the start of that block. -/
theorem walk (wf : WellFormed s) (room : s.position < s.capacity) (count : Nat)
    (fits : s.position + count ≤ s.capacity) :
    s.nodes.drop (s.position / s.baseSize) ≠ [] ∧
      s.position % s.baseSize + count ≤
        (s.nodes.drop (s.position / s.baseSize)).length * s.baseSize := by
  obtain ⟨-, inside⟩ := wf.cur_some room
  have split_pos := Nat.div_add_mod' s.position s.baseSize
  constructor
  · simpa using inside
  · have cap := wf.capacity_eq
    have whole : s.nodes.length = (s.nodes.length - s.position / s.baseSize)
        + s.position / s.baseSize := by omega
    rw [whole, Nat.add_mul] at cap
    rw [List.length_drop]
    omega

theorem advanced (wf : WellFormed s) (count : Nat) :
    s.position / s.baseSize + (s.position % s.baseSize + count) / s.baseSize =
      (s.position + count) / s.baseSize := by
  have split_pos := Nat.div_add_mod' s.position s.baseSize
  have total : s.position + count =
      s.position % s.baseSize + count + s.position / s.baseSize * s.baseSize := by omega
  rw [total, Nat.add_mul_div_right _ _ wf.positive, Nat.add_comm]

end WellFormed

theorem create_wellFormed (heap : Nat → Nat → UInt8) {base : Nat} (positive : 0 < base) :
    WellFormed (create heap base) where
  positive := positive
  rooted := by simp [create]
  uniform := by simp [create, Uniform, newNode, Node.size]
  capacity_eq := by simp [create]
  position_le := by simp [create]
  size_le := by simp [create]
  cur_eq := by simp [create, nodeAt]

theorem clear_wellFormed {s : ByteArray} (wf : WellFormed s) : WellFormed s.clear where
  positive := wf.positive
  rooted := by simpa [clear] using wf.rooted
  uniform := wf.uniform.take 1
  capacity_eq := by
    have one : min 1 s.nodes.length = 1 := Nat.min_eq_left (List.length_pos_iff.mpr wf.rooted)
    simp [clear, one]
  position_le := by simp [clear]
  size_le := by simp [clear]
  cur_eq := by
    have one : min 1 s.nodes.length = 1 := Nat.min_eq_left (List.length_pos_iff.mpr wf.rooted)
    simp [clear, nodeAt, one]

theorem le_ceilDiv_mul (size : Nat) {base : Nat} (positive : 0 < base) :
    size ≤ ceilDiv size base * base := by
  have split_size := Nat.div_add_mod' (size + base - 1) base
  have small := Nat.mod_lt (size + base - 1) positive
  rw [ceilDiv]
  omega

theorem uniform_newNodes (heap : Nat → Nat → UInt8) (first count base : Nat) :
    Uniform base ((List.range count).map fun i => newNode heap (first + i) base) := by
  intro node member
  obtain ⟨i, -, rfl⟩ := List.mem_map.mp member
  simp [newNode, Node.size]

/-- `addCapacity(size)` makes room for `size` bytes at the cursor, moves nothing,
and repairs `m_cur` when it stood at the end of the old capacity. -/
theorem addCapacity_spec {s : ByteArray} (wf : WellFormed s) (size : Nat) :
    WellFormed (s.addCapacity size) ∧ s.position + size ≤ (s.addCapacity size).capacity ∧
      (s.addCapacity size).baseSize = s.baseSize ∧
      (s.addCapacity size).position = s.position ∧ (s.addCapacity size).size = s.size ∧
      ∃ extra, (s.addCapacity size).nodes = s.nodes ++ extra := by
  have le := wf.position_le_capacity
  have cap := wf.getCapacity_eq
  unfold addCapacity
  split
  next nothing => exact ⟨wf, by omega, rfl, rfl, rfl, [], by simp⟩
  next =>
    simp only [ge_iff_le]
    split
    next enough => exact ⟨wf, by omega, rfl, rfl, rfl, [], by simp⟩
    next short =>
      have needed := le_ceilDiv_mul (size - s.getCapacity) wf.positive
      -- a block is really added, so the repaired `m_cur` is not null
      have grew : 0 < ceilDiv (size - s.getCapacity) s.baseSize := by
        apply Nat.pos_of_ne_zero
        intro zero
        rw [zero] at needed
        omega
      refine ⟨?_, by simp only; omega, rfl, rfl, rfl, _, rfl⟩
      constructor
      · exact wf.positive
      · simpa using fun gone => absurd gone wf.rooted
      · exact wf.uniform.append (uniform_newNodes _ _ _ _)
      · simp [wf.capacity_eq, Nat.add_mul]
      · exact wf.position_le
      · exact Nat.le_trans wf.size_le (Nat.le_add_right _ _)
      · -- the cursor's block is the first new one, or it existed before
        simp only [nodeAt, List.length_append, List.length_map, List.length_range]
        by_cases full : s.getCapacity = 0
        · have at_end : s.position / s.baseSize = s.nodes.length := by
            rw [show s.position = s.capacity by omega, wf.capacity_eq,
              Nat.mul_div_cancel _ wf.positive]
          rw [if_pos full, if_neg (by omega), at_end, if_pos (by omega)]
        · obtain ⟨found, inside⟩ := wf.cur_some (by omega)
          rw [if_neg full, found, if_pos (by omega)]

/-- Bytes past the stored ones are invisible, so growing the chain is too. -/
theorem contents_of_append {s s' : ByteArray} (wf : WellFormed s) (extra : List Node)
    (nodes : s'.nodes = s.nodes ++ extra) (size : s'.size = s.size) :
    s'.contents = s.contents := by
  have inside : s.size ≤ (memory s.nodes).length := by
    rw [length_memory wf.uniform, ← wf.capacity_eq]
    exact wf.size_le
  rw [contents, contents, nodes, size, memory_append, List.take_append_of_le_length inside]

theorem addCapacity_contents {s : ByteArray} (wf : WellFormed s) (size : Nat) :
    (s.addCapacity size).contents = s.contents := by
  obtain ⟨-, -, -, -, size_eq, extra, nodes_eq⟩ := addCapacity_spec wf size
  exact contents_of_append wf extra nodes_eq size_eq

private theorem max_eq_ite (a b : Nat) : (if a > b then a else b) = max b a := by
  split <;> omega

/-- `write` is a splice at the cursor. -/
theorem write_spec {s : ByteArray} (wf : WellFormed s) (buf : List UInt8) :
    ∃ s', write buf s = .ok () s' ∧ WellFormed s' ∧ s'.baseSize = s.baseSize ∧
      s'.position = s.position + buf.length ∧ s'.size = max s.size (s.position + buf.length) ∧
      s'.contents = splice s.contents s.position buf := by
  unfold write
  by_cases empty : buf.length = 0
  · have none_left := List.eq_nil_of_length_eq_zero empty
    refine ⟨s, if_pos empty, wf, rfl, by omega, ?_, by simp [none_left]⟩
    have := wf.position_le
    omega
  · rw [if_neg empty]
    obtain ⟨wf', room, base', position', size', extra, nodes'⟩ := addCapacity_spec wf buf.length
    have same := addCapacity_contents wf buf.length
    -- from here on only what `addCapacity` promises is used of the grown array
    revert wf' room base' position' size' nodes' same
    generalize s.addCapacity buf.length = g
    intro wf' room base' position' size' nodes' same
    have below : g.position < g.capacity := by omega
    obtain ⟨found, inside⟩ := wf'.cur_some below
    obtain ⟨some_node, fits⟩ := wf'.walk below buf.length (by omega)
    obtain ⟨rest, ran, uniform, length, spliced⟩ :=
      writeLoop_spec wf'.positive _ _ buf (wf'.uniform.drop _)
        (Nat.mod_lt _ wf'.positive) fits some_node
    simp only [found, ran]
    -- the loop works on the blocks from the cursor on; the ones before it keep their bytes
    obtain ⟨split_memory, front⟩ := memory_split wf'.uniform _ (Nat.le_of_lt inside)
    have length_nodes : (g.nodes.take (g.position / g.baseSize) ++ rest).length =
        g.nodes.length := by
      rw [List.length_append, length, List.length_take, List.length_drop]
      omega
    have new_memory : memory (g.nodes.take (g.position / g.baseSize) ++ rest) =
        splice (memory g.nodes) g.position buf := by
      rw [memory_append, spliced, split_memory, ← splice_append_right, front, Nat.div_add_mod']
    refine ⟨_, rfl, ?_, base', by simp only [position'], ?_, ?_⟩
    · constructor
      · exact wf'.positive
      · apply List.ne_nil_of_length_pos
        rw [length_nodes]
        exact List.length_pos_iff.mpr wf'.rooted
      · exact (wf'.uniform.take _).append uniform
      · simpa only [length_nodes] using wf'.capacity_eq
      · simp only [max_eq_ite]
        omega
      · have := wf'.size_le
        simp only [max_eq_ite]
        omega
      · simp only [nodeAt, length_nodes, wf'.advanced]
    · simp only [max_eq_ite, position', size']
    · simp only [contents, new_memory, max_eq_ite]
      -- the splice may run past the old size, never past the capacity
      have whole : (memory g.nodes).length = g.capacity := by
        rw [length_memory wf'.uniform, wf'.capacity_eq]
      rw [take_splice _ _ _ _ wf'.position_le (by omega), position']
      exact congrArg (splice · s.position buf) same

/-- A read of stored bytes moves the cursor and nothing else. -/
theorem read_eq {s : ByteArray} (wf : WellFormed s) {n : Nat} (some_byte : 1 ≤ n)
    (enough : n ≤ s.size - s.position) :
    read n s = .ok (window s.contents s.position n) { s with
      position := s.position + n, cur := s.nodeAt ((s.position + n) / s.baseSize) } := by
  have := wf.size_le
  have below : s.position < s.capacity := by omega
  obtain ⟨found, inside⟩ := wf.cur_some below
  obtain ⟨some_node, fits⟩ := wf.walk below n (by omega)
  have ran := readLoop_spec wf.positive _ _ n (wf.uniform.drop _)
    (Nat.mod_lt _ wf.positive) fits some_node
  obtain ⟨split_memory, front⟩ := memory_split wf.uniform _ (Nat.le_of_lt inside)
  have bytes : window (memory (s.nodes.drop (s.position / s.baseSize)))
      (s.position % s.baseSize) n = window s.contents s.position n := by
    -- the bytes asked for are stored ones, so the visible part is enough
    rw [contents, window_take _ _ _ _ (by omega), split_memory, ← window_append_right, front,
      Nat.div_add_mod']
  unfold read
  rw [wf.getReadSize_eq, if_neg (by omega)]
  simp only [found, ran, bytes, wf.advanced]

/-- Moving the cursor inside the stored bytes keeps a state well formed. -/
theorem WellFormed.moved {s : ByteArray} (wf : WellFormed s) {position size : Nat}
    (inside : position ≤ size) (stored : size ≤ s.capacity) :
    WellFormed { s with
      position := position, size := size, cur := s.nodeAt (position / s.baseSize) } :=
  ⟨wf.positive, wf.rooted, wf.uniform, wf.capacity_eq, inside, stored, rfl⟩

theorem read_spec {s : ByteArray} (wf : WellFormed s) {n : Nat} (some_byte : 1 ≤ n)
    (enough : n ≤ s.size - s.position) :
    ∃ s', read n s = .ok (window s.contents s.position n) s' ∧ WellFormed s' ∧
      s'.baseSize = s.baseSize ∧ s'.position = s.position + n ∧ s'.size = s.size ∧
      s'.contents = s.contents := by
  refine ⟨_, read_eq wf some_byte enough, wf.moved ?_ wf.size_le, rfl, rfl, rfl, rfl⟩
  omega

theorem read_short {s : ByteArray} (wf : WellFormed s) {n : Nat}
    (short : s.size - s.position < n) : read n s = .error .outOfRange s := by
  unfold read
  rw [wf.getReadSize_eq, if_pos short]

theorem toString_spec {s : ByteArray} (wf : WellFormed s) :
    s.toString = .ok (s.contents.drop s.position) := by
  unfold toString
  rw [wf.getReadSize_eq]
  split
  next empty =>
    rw [List.drop_eq_nil_of_le]
    rw [wf.length_contents]
    omega
  next some_left =>
    have := wf.size_le
    have below : s.position < s.capacity := by omega
    obtain ⟨found, inside⟩ := wf.cur_some below
    obtain ⟨some_node, fits⟩ := wf.walk below (s.size - s.position) (by omega)
    have ran := readLoop_spec wf.positive _ _ (s.size - s.position) (wf.uniform.drop _)
      (Nat.mod_lt _ wf.positive) fits some_node
    obtain ⟨split_memory, front⟩ := memory_split wf.uniform _ (Nat.le_of_lt inside)
    unfold readAt
    rw [sizeSub_of_le wf.position_le, if_neg (by omega), found]
    simp only [ran, Except.map]
    rw [← window_append_right, front, ← split_memory, Nat.div_add_mod', window, contents,
      List.drop_take]

theorem setPosition_eq {s : ByteArray} (wf : WellFormed s) {v : Nat} (inside : v ≤ s.capacity) :
    setPosition v s = .ok () { s with
      position := v, size := max s.size v, cur := s.nodeAt (v / s.baseSize) } := by
  have fits : v ≤ s.nodes.length * s.baseSize := wf.capacity_eq ▸ inside
  have ran := seek_spec wf.positive s.nodes v wf.uniform fits wf.rooted
  unfold setPosition
  rw [if_neg (by omega)]
  simp only [ran, max_eq_ite]
  rfl

theorem setPosition_spec {s : ByteArray} (wf : WellFormed s) {v : Nat} (inside : v ≤ s.capacity) :
    ∃ s', setPosition v s = .ok () s' ∧ WellFormed s' ∧ s'.baseSize = s.baseSize ∧
      s'.position = v ∧ s'.size = max s.size v ∧ s'.nodes = s.nodes := by
  have := wf.size_le
  exact ⟨_, setPosition_eq wf inside, wf.moved (by omega) (by omega), rfl, rfl, rfl, rfl⟩

theorem setPosition_beyond {s : ByteArray} {v : Nat} (beyond : s.capacity < v) :
    setPosition v s = .error .outOfRange s := if_pos beyond

/-- Collecting `iovec`s from the cursor stays inside the chain. -/
theorem buffersFromCur_spec {s : ByteArray} (wf : WellFormed s) {len : Nat} (some_byte : 0 < len)
    (fits : s.position + len ≤ s.capacity) :
    ∃ buffers, s.buffersFromCur len = .ok buffers ∧ (buffers.map Iovec.len).sum = len ∧
      Covers s.baseSize s.position buffers := by
  have below : s.position < s.capacity := by omega
  obtain ⟨some_node, fits'⟩ := wf.walk below len fits
  unfold buffersFromCur
  simp only [(wf.cur_some below).1]
  have collected := buffersLoop_spec _ (s.position / s.baseSize) _ len (wf.uniform.drop _)
    (Nat.mod_lt _ wf.positive) fits' some_node
  rwa [Nat.div_add_mod'] at collected

end Dwframe.ByteArray
