import Dwframe.ByteArray.Model

/-!
# The copy loops over a chain of equal blocks

Over nodes of one size the chain is one flat memory, and each loop of the source
does to that memory what its straight-line counterpart does: `writeLoop` is a
splice, `readLoop` a window, `buffersLoop` a partition of a window, `seek` a
division. All four advance the node pointer to the block of the first byte they
did not touch.
-/
namespace Dwframe.ByteArray

open Lib

def memory (nodes : List Node) : List UInt8 := nodes.flatMap Node.ptr

def Uniform (base : Nat) (nodes : List Node) : Prop := ∀ node ∈ nodes, node.size = base

@[simp] theorem memory_cons (node : Node) (rest : List Node) :
    memory (node :: rest) = node.ptr ++ memory rest := rfl

@[simp] theorem memory_append (xs ys : List Node) : memory (xs ++ ys) = memory xs ++ memory ys := by
  simp [memory]

theorem Uniform.cons {base : Nat} {node : Node} {rest : List Node}
    (uniform : Uniform base (node :: rest)) : node.size = base ∧ Uniform base rest :=
  List.forall_mem_cons.mp uniform

theorem Uniform.append {base : Nat} {xs ys : List Node} (left : Uniform base xs)
    (right : Uniform base ys) : Uniform base (xs ++ ys) :=
  List.forall_mem_append.mpr ⟨left, right⟩

theorem Uniform.take {base : Nat} {nodes : List Node} (uniform : Uniform base nodes) (n : Nat) :
    Uniform base (nodes.take n) :=
  fun node member => uniform node (List.mem_of_mem_take member)

theorem Uniform.drop {base : Nat} {nodes : List Node} (uniform : Uniform base nodes) (n : Nat) :
    Uniform base (nodes.drop n) :=
  fun node member => uniform node (List.mem_of_mem_drop member)

theorem length_memory {base : Nat} {nodes : List Node} (uniform : Uniform base nodes) :
    (memory nodes).length = nodes.length * base := by
  induction nodes with
  | nil => simp [memory]
  | cons node rest ih =>
    obtain ⟨head, tail⟩ := uniform.cons
    have step : (node :: rest).length * base = rest.length * base + base := by
      rw [List.length_cons, Nat.succ_mul]
    rw [memory_cons, List.length_append, ih tail, step]
    simp only [Node.size] at head
    omega

/-- Splitting the chain at a node splits the memory at the node's first byte. -/
theorem memory_split {base : Nat} {nodes : List Node} (uniform : Uniform base nodes) (i : Nat)
    (inside : i ≤ nodes.length) :
    memory nodes = memory (nodes.take i) ++ memory (nodes.drop i) ∧
      (memory (nodes.take i)).length = i * base := by
  constructor
  · rw [← memory_append, List.take_append_drop]
  · rw [length_memory (uniform.take i), List.length_take, Nat.min_eq_left inside]

/-- The node pointer of a loop that stops at offset `last` of its first block. -/
private theorem moved_inside {base last : Nat} (positive : 0 < base) (inside : last ≤ base) :
    (if base = last then 1 else 0) = last / base := by
  split
  next full => rw [← full, Nat.div_self positive]
  next short => rw [Nat.div_eq_of_lt (by omega)]

private theorem moved_across {base npos count : Nat} (positive : 0 < base)
    (across : base - npos < count) (start : npos < base) :
    (0 + (count - (base - npos))) / base + 1 = (npos + count) / base := by
  have total : npos + count = 0 + (count - (base - npos)) + base := by omega
  rw [total, Nat.add_div_right _ positive]

/-- When a run of bytes leaves the first block, the rest of it fits the following ones. -/
private theorem next_block {base npos count : Nat} {node : Node} {rest : List Node}
    (fits : npos + count ≤ (node :: rest).length * base) (across : base - npos < count) :
    0 + (count - (base - npos)) ≤ rest.length * base ∧ rest ≠ [] := by
  rw [List.length_cons, Nat.succ_mul] at fits
  refine ⟨by omega, ?_⟩
  rintro rfl
  rw [List.length_nil, Nat.zero_mul] at fits
  omega

theorem writeLoop_spec {base : Nat} (positive : 0 < base) (nodes : List Node) (npos : Nat)
    (buf : List UInt8) (uniform : Uniform base nodes) (start : npos < base)
    (fits : npos + buf.length ≤ nodes.length * base) (some_node : nodes ≠ []) :
    ∃ nodes', writeLoop nodes npos buf = .ok (nodes', (npos + buf.length) / base) ∧
      Uniform base nodes' ∧ nodes'.length = nodes.length ∧
      memory nodes' = splice (memory nodes) npos buf := by
  induction nodes generalizing npos buf with
  | nil => contradiction
  | cons node rest ih =>
    obtain ⟨head, tail⟩ := uniform.cons
    have block : node.ptr.length = base := head
    simp only [writeLoop, Node.copyIn, head]
    split
    next last =>
      have room : npos + buf.length ≤ base := by omega
      refine ⟨⟨splice node.ptr npos buf⟩ :: rest, ?_, ?_, rfl, ?_⟩
      · simp [bind, Except.bind, room, moved_inside positive room]
      · refine List.forall_mem_cons.mpr ⟨?_, tail⟩
        rw [Node.size, length_splice _ _ _ (by omega), block]
      · rw [memory_cons, memory_cons, splice_append_left _ _ _ _ (by omega)]
    next across =>
      -- the block is filled up, and the rest of `buf` goes to the blocks after it
      have across : base - npos < buf.length := by omega
      obtain ⟨fits', more⟩ := next_block fits across
      have dropped : (buf.drop (base - npos)).length = buf.length - (base - npos) := by simp
      obtain ⟨rest', ran, uniform', length', memory'⟩ :=
        ih 0 (buf.drop (base - npos)) tail positive (by omega) more
      have filled : (buf.take (base - npos)).length = base - npos := by
        rw [List.length_take]; omega
      refine ⟨⟨splice node.ptr npos (buf.take (base - npos))⟩ :: rest', ?_, ?_, ?_, ?_⟩
      · simp only [filled, ran, bind, Except.bind]
        rw [if_pos (by omega), dropped, moved_across positive across start]
      · refine List.forall_mem_cons.mpr ⟨?_, uniform'⟩
        rw [Node.size, length_splice _ _ _ (by omega), block]
      · rw [List.length_cons, length', List.length_cons]
      · rw [memory_cons, memory_cons, memory', splice_append_across _ _ _ _ (by omega) (by omega),
          block]

theorem readLoop_spec {base : Nat} (positive : 0 < base) (nodes : List Node) (npos size : Nat)
    (uniform : Uniform base nodes) (start : npos < base)
    (fits : npos + size ≤ nodes.length * base) (some_node : nodes ≠ []) :
    readLoop nodes npos size =
      .ok (window (memory nodes) npos size, (npos + size) / base) := by
  induction nodes generalizing npos size with
  | nil => contradiction
  | cons node rest ih =>
    obtain ⟨head, tail⟩ := uniform.cons
    have block : node.ptr.length = base := head
    simp only [readLoop, Node.copyOut, head]
    split
    next none_left =>
      subst none_left
      simp [window, Nat.div_eq_of_lt start]
    next =>
      split
      next last =>
        have room : npos + size ≤ base := by omega
        simp [bind, Except.bind, room, moved_inside positive room,
          window_append_left node.ptr (memory rest) npos size (by omega)]
      next across =>
        have across : base - npos < size := by omega
        obtain ⟨fits', more⟩ := next_block fits across
        have ran := ih 0 (size - (base - npos)) tail positive fits' more
        simp only [ran, bind, Except.bind]
        rw [if_pos (by omega), moved_across positive across start, memory_cons,
          window_append_across _ _ _ _ (by omega) (by omega), block]

theorem seek_spec {base : Nat} (positive : 0 < base) (nodes : List Node) (v : Nat)
    (uniform : Uniform base nodes) (fits : v ≤ nodes.length * base) (some_node : nodes ≠ []) :
    seek nodes v = .ok (v / base) := by
  induction nodes generalizing v with
  | nil => contradiction
  | cons node rest ih =>
    obtain ⟨head, tail⟩ := uniform.cons
    simp only [seek, head]
    split
    next beyond =>
      have block : 0 + v ≤ (node :: rest).length * base := by omega
      obtain ⟨fits', more⟩ := next_block block beyond
      have ran := ih (v - base) tail (by omega) more
      have total : v / base = (v - base) / base + 1 := by
        rw [← Nat.add_div_right _ positive, Nat.sub_add_cancel (by omega)]
      simp [ran, bind, Except.bind, total]
    next =>
      split
      -- `v` at the end of a block belongs to the next one, which is null past the last
      next exact_end => rw [exact_end, Nat.div_self positive]
      next => rw [Nat.div_eq_of_lt (by omega)]

/-- The `iovec`s lie one behind the other in the memory, from `start` on. -/
def Covers (base : Nat) : Nat → List Iovec → Prop
  | _, [] => True
  | start, iov :: rest =>
    iov.node * base + iov.offset = start ∧ 0 < iov.len ∧ iov.offset + iov.len ≤ base ∧
      Covers base (start + iov.len) rest

/-- Following the `iovec`s never meets a null node, and they cover `len` bytes. -/
theorem buffersLoop_spec {base : Nat} (nodes : List Node) (number npos len : Nat)
    (uniform : Uniform base nodes) (start : npos < base)
    (fits : npos + len ≤ nodes.length * base) (some_node : nodes ≠ []) :
    ∃ buffers, buffersLoop nodes number npos len = .ok buffers ∧
      (buffers.map Iovec.len).sum = len ∧ Covers base (number * base + npos) buffers := by
  induction nodes generalizing number npos len with
  | nil => contradiction
  | cons node rest ih =>
    obtain ⟨head, tail⟩ := uniform.cons
    simp only [buffersLoop, head]
    split
    next none_left => exact ⟨[], rfl, by simp [none_left], trivial⟩
    next some_left =>
      split
      next last =>
        exact ⟨[⟨number, npos, len⟩], rfl, by simp, rfl, by simp only; omega, by simp only; omega,
          trivial⟩
      next across =>
        obtain ⟨fits', more⟩ := next_block fits (by omega)
        obtain ⟨buffers, ran, total, covers⟩ := ih (number + 1) 0 (len - (base - npos)) tail
          (by omega) fits' more
        have next_start : number * base + npos + (base - npos) = (number + 1) * base + 0 := by
          rw [Nat.succ_mul]
          omega
        refine ⟨⟨number, npos, base - npos⟩ :: buffers, ?_, ?_, rfl, by simp only; omega,
          by simp only; omega, ?_⟩
        · simp [ran, bind, Except.bind]
        · simp only [List.map_cons, List.sum_cons, total]
          omega
        · rw [next_start]
          exact covers

end Dwframe.ByteArray
