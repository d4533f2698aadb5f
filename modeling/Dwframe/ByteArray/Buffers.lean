import Dwframe.ByteArray.Reachable

/-!
# Scatter and gather

`recvmsg` stores bytes through a list of `iovec`s one after the other, `sendmsg` collects them
the same way. `Covers` says where in the flat memory the `iovec`s lie, so storing through them is
a splice and collecting is a window, as for `write` and `read`. `Reachable` adds such stores to
the calls of a client.
-/
namespace Dwframe

open Lib

namespace Iovec

/-- The bytes an `iovec` points to. -/
def bytes (nodes : List Node) (iov : Iovec) : List UInt8 :=
  match nodes[iov.node]? with
  | none => []
  | some node => window node.ptr iov.offset iov.len

/-- Store `src` from the start of an `iovec` on. -/
def fill (nodes : List Node) (iov : Iovec) (src : List UInt8) : List Node :=
  nodes.modify iov.node fun node => ⟨splice node.ptr iov.offset src⟩

/-- The two byte ranges do not meet. -/
def Disjoint (a b : Iovec) : Prop :=
  a.node ≠ b.node ∨ a.offset + a.len ≤ b.offset ∨ b.offset + b.len ≤ a.offset

end Iovec

namespace ByteArray

/-- The bytes behind the `iovec`s, in order. -/
def gather (nodes : List Node) (buffers : List Iovec) : List UInt8 :=
  buffers.flatMap (Iovec.bytes nodes)

/-- Store `src` through the `iovec`s, filling each before the next. -/
def scatter : List Iovec → List UInt8 → List Node → List Node
  | [], _, nodes => nodes
  | iov :: rest, src, nodes =>
    scatter rest (src.drop iov.len) (iov.fill nodes (src.take iov.len))

def store (s : ByteArray) (buffers : List Iovec) (src : List UInt8) : ByteArray :=
  { s with nodes := scatter buffers src s.nodes }

variable {base start : Nat} {nodes : List Node} {buffers : List Iovec}

/-! ### Where the `iovec`s lie -/

/-- The memory around one block. -/
theorem memory_at (uniform : Uniform base nodes) {i : Nat} {node : Node}
    (found : nodes[i]? = some node) :
    memory nodes = memory (nodes.take i) ++ (node.ptr ++ memory (nodes.drop (i + 1))) ∧
      (memory (nodes.take i)).length = i * base ∧ node.ptr.length = base := by
  obtain ⟨inside, here⟩ := List.getElem?_eq_some_iff.mp found
  obtain ⟨split_memory, front⟩ := memory_split uniform i (Nat.le_of_lt inside)
  refine ⟨?_, front, uniform node (List.mem_of_getElem? found)⟩
  rw [split_memory, List.drop_eq_getElem_cons inside, memory_cons, here]

/-- A byte range inside the memory begins in a block of the chain. -/
private theorem node_inside {iov : Iovec} {count : Nat}
    (here : iov.node * base + iov.offset = start) (some_byte : 0 < count)
    (fits : start + count ≤ nodes.length * base) : iov.node < nodes.length := by
  by_contra outside
  have beyond := Nat.mul_le_mul_right base (Nat.le_of_not_lt outside)
  omega

theorem bytes_eq (uniform : Uniform base nodes) {iov : Iovec}
    (here : iov.node * base + iov.offset = start) (some_byte : 0 < iov.len)
    (inside : iov.offset + iov.len ≤ base) (fits : start + iov.len ≤ nodes.length * base) :
    iov.bytes nodes = window (memory nodes) start iov.len := by
  have bound := node_inside here some_byte fits
  have found := List.getElem?_eq_getElem bound
  obtain ⟨around, front, block⟩ := memory_at uniform found
  rw [Iovec.bytes, found, around, ← here, ← front, window_append_right,
    window_append_left _ _ _ _ (by omega)]

theorem fill_spec (uniform : Uniform base nodes) {iov : Iovec} {src : List UInt8}
    (here : iov.node * base + iov.offset = start) (some_byte : 0 < src.length)
    (inside : iov.offset + src.length ≤ base) (fits : start + src.length ≤ nodes.length * base) :
    memory (iov.fill nodes src) = splice (memory nodes) start src ∧
      Uniform base (iov.fill nodes src) ∧ (iov.fill nodes src).length = nodes.length := by
  have bound := node_inside here some_byte fits
  have found := List.getElem?_eq_getElem bound
  obtain ⟨around, front, block⟩ := memory_at uniform found
  have rewritten : iov.fill nodes src = nodes.take iov.node ++
      ⟨splice nodes[iov.node].ptr iov.offset src⟩ :: nodes.drop (iov.node + 1) :=
    List.modify_eq_take_cons_drop bound
  refine ⟨?_, ?_, List.length_modify _ _ _⟩
  · rw [rewritten, memory_append, memory_cons, around, ← here, ← front, splice_append_right,
      splice_append_left _ _ _ _ (by omega)]
  · rw [rewritten]
    refine (uniform.take _).append (List.forall_mem_cons.mpr ⟨?_, uniform.drop _⟩)
    rw [Node.size, length_splice _ _ _ (by omega), block]

theorem scatter_nil (buffers : List Iovec) (nodes : List Node) :
    scatter buffers [] nodes = nodes := by
  induction buffers with
  | nil => rfl
  | cons iov rest ih =>
    have nothing : iov.fill nodes [] = nodes := by
      simp only [Iovec.fill, splice_nil]
      exact List.modify_id _ _
    simp only [scatter, List.take_nil, List.drop_nil, nothing, ih]

/-- Storing through the `iovec`s is a splice of the memory. -/
theorem scatter_spec (covers : Covers base start buffers) (uniform : Uniform base nodes)
    (src : List UInt8) (fits : start + src.length ≤ nodes.length * base)
    (enough : src.length ≤ (buffers.map Iovec.len).sum) :
    memory (scatter buffers src nodes) = splice (memory nodes) start src ∧
      Uniform base (scatter buffers src nodes) ∧
      (scatter buffers src nodes).length = nodes.length := by
  induction buffers generalizing start src nodes with
  | nil =>
    have nothing : src = [] := List.eq_nil_of_length_eq_zero (by simpa using enough)
    subst nothing
    exact ⟨(splice_nil _ _).symm, uniform, rfl⟩
  | cons iov rest ih =>
    by_cases nothing : src = []
    · subst nothing
      rw [scatter_nil, splice_nil]
      exact ⟨rfl, uniform, rfl⟩
    obtain ⟨here, some_byte, inside, covers'⟩ := covers
    have left : 0 < src.length := List.length_pos_iff.mpr nothing
    have taken : (src.take iov.len).length = min iov.len src.length := List.length_take
    obtain ⟨first, uniform', length'⟩ := fill_spec uniform here
      (by omega : 0 < (src.take iov.len).length) (by omega) (by omega)
    have whole : (memory nodes).length = nodes.length * base := length_memory uniform
    rcases Nat.le_total src.length iov.len with last | more
    · -- the bytes run out in this `iovec`
      have all : src.take iov.len = src := List.take_of_length_le last
      have done : src.drop iov.len = [] := List.drop_eq_nil_of_le last
      rw [all] at first uniform' length'
      rw [scatter, done, scatter_nil, all]
      exact ⟨first, uniform', length'⟩
    · have full : (src.take iov.len).length = iov.len := by omega
      have rest_length : (src.drop iov.len).length = src.length - iov.len := List.length_drop
      simp only [List.map_cons, List.sum_cons] at enough
      obtain ⟨second, uniform'', length''⟩ := ih covers' uniform' (src.drop iov.len)
        (by rw [length']; omega) (by omega)
      refine ⟨?_, uniform'', length''.trans length'⟩
      rw [scatter, second, first]
      calc splice (splice (memory nodes) start (src.take iov.len)) (start + iov.len)
            (src.drop iov.len)
        _ = splice (splice (memory nodes) start (src.take iov.len))
            (start + (src.take iov.len).length) (src.drop iov.len) := by rw [full]
        _ = splice (memory nodes) start (src.take iov.len ++ src.drop iov.len) :=
          splice_splice _ _ _ _ (by omega)
        _ = splice (memory nodes) start src := by rw [List.take_append_drop]

/-- Collecting from the `iovec`s is a window of the memory. -/
theorem gather_eq (covers : Covers base start buffers) (uniform : Uniform base nodes)
    (fits : start + (buffers.map Iovec.len).sum ≤ nodes.length * base) :
    gather nodes buffers = window (memory nodes) start (buffers.map Iovec.len).sum := by
  induction buffers generalizing start with
  | nil => simp [gather, window]
  | cons iov rest ih =>
    obtain ⟨here, some_byte, inside, covers'⟩ := covers
    simp only [List.map_cons, List.sum_cons] at fits ⊢
    rw [gather, List.flatMap_cons, bytes_eq uniform here some_byte inside (by omega)]
    rw [show rest.flatMap (Iovec.bytes nodes) = gather nodes rest from rfl,
      ih covers' (by omega), window_append_window]

theorem covers_disjoint (covers : Covers base start buffers) : buffers.Pairwise Iovec.Disjoint := by
  have later : ∀ {start : Nat} {buffers : List Iovec}, Covers base start buffers →
      ∀ iov ∈ buffers, start ≤ iov.node * base + iov.offset := by
    intro start buffers
    induction buffers generalizing start with
    | nil => simp
    | cons first rest ih =>
      rintro ⟨here, -, -, covers'⟩ iov member
      rcases List.mem_cons.mp member with rfl | behind
      · exact Nat.le_of_eq here.symm
      · exact Nat.le_trans (Nat.le_add_right _ _) (ih covers' iov behind)
  induction buffers generalizing start with
  | nil => exact .nil
  | cons first rest ih =>
    obtain ⟨here, -, -, covers'⟩ := covers
    refine List.pairwise_cons.mpr ⟨fun iov member => ?_, ih covers'⟩
    have behind := later covers' iov member
    by_cases same : first.node = iov.node
    · rw [← same] at behind
      exact .inr (.inl (by omega))
    · exact .inl same

/-! ### The two calls -/

variable {s : ByteArray}

/-- `getWriteBuffers` makes room for `len` bytes and returns where they go. -/
theorem getWriteBuffers_spec (wf : WellFormed s) (len : Nat) :
    ∃ buffers s', getWriteBuffers len s = .ok (buffers, len) s' ∧ WellFormed s' ∧
      s'.position = s.position ∧ s'.size = s.size ∧ s'.contents = s.contents ∧
      s.position + len ≤ s'.capacity ∧ (buffers.map Iovec.len).sum = len ∧
      Covers s'.baseSize s'.position buffers := by
  unfold getWriteBuffers
  by_cases empty : len = 0
  · subst empty
    exact ⟨[], s, rfl, wf, rfl, rfl, rfl, wf.position_le_capacity, rfl, trivial⟩
  · obtain ⟨wf', room, -, position, size, -⟩ := addCapacity_spec wf len
    obtain ⟨buffers, ran, total, covers⟩ :=
      buffersFromCur_spec wf' (Nat.pos_of_ne_zero empty) (by rw [position]; exact room)
    refine ⟨buffers, s.addCapacity len, ?_, wf', position, size, addCapacity_contents wf len, room,
      total, covers⟩
    simp [empty, ran]

theorem store_wellFormed (wf : WellFormed s) (covers : Covers s.baseSize s.position buffers)
    (src : List UInt8) (enough : src.length ≤ (buffers.map Iovec.len).sum)
    (room : s.position + src.length ≤ s.capacity) :
    WellFormed (s.store buffers src) ∧
      memory (s.store buffers src).nodes = splice (memory s.nodes) s.position src := by
  obtain ⟨spliced, uniform, length⟩ := scatter_spec covers wf.uniform src
    (wf.capacity_eq ▸ room) enough
  refine ⟨⟨wf.positive, ?_, uniform, ?_, wf.position_le, wf.size_le, ?_⟩, spliced⟩
  · apply List.ne_nil_of_length_pos
    rw [store, length]
    exact List.length_pos_iff.mpr wf.rooted
  · rw [store, length]
    exact wf.capacity_eq
  · simpa only [store, nodeAt, length] using wf.cur_eq

/-- Storing through the `iovec`s and moving the cursor past the bytes is `write`. -/
theorem store_setPosition (wf : WellFormed s) (covers : Covers s.baseSize s.position buffers)
    (src : List UInt8) (enough : src.length ≤ (buffers.map Iovec.len).sum)
    (room : s.position + src.length ≤ s.capacity) :
    ∃ s', setPosition (s.position + src.length) (s.store buffers src) = .ok () s' ∧
      WellFormed s' ∧ s'.position = s.position + src.length ∧
      s'.size = max s.size (s.position + src.length) ∧
      s'.contents = splice s.contents s.position src := by
  obtain ⟨wf', spliced⟩ := store_wellFormed wf covers src enough room
  obtain ⟨s', moved, wf'', -, position, size, nodes⟩ := setPosition_spec wf' room
  refine ⟨s', moved, wf'', position, size, ?_⟩
  have whole : (memory s.nodes).length = s.capacity := by
    rw [length_memory wf.uniform, wf.capacity_eq]
  rw [contents, nodes, size, spliced]
  exact take_splice _ _ _ _ wf.position_le (by omega)

/-- `getReadBuffers` returns where the next unread bytes lie. -/
theorem getReadBuffers_spec (wf : WellFormed s) (len : Nat) :
    ∃ buffers, s.getReadBuffers len = .ok (buffers, min len s.getReadSize) ∧
      gather s.nodes buffers = window s.contents s.position (min len s.getReadSize) := by
  have size_le := wf.size_le
  have position_le := wf.position_le
  have read_size := wf.getReadSize_eq
  have cut : (if len > s.getReadSize then s.getReadSize else len) = min len s.getReadSize := by
    split <;> omega
  generalize want_eq : min len s.getReadSize = want at cut
  by_cases empty : want = 0
  · exact ⟨[], by simp [getReadBuffers, cut, empty], by simp [gather, window, empty]⟩
  · obtain ⟨buffers, ran, total, covers⟩ :=
      buffersFromCur_spec wf (Nat.pos_of_ne_zero empty) (by omega)
    refine ⟨buffers, ?_, ?_⟩
    · simp [getReadBuffers, cut, empty, ran, bind, Except.bind]
    · have fits : s.position + (buffers.map Iovec.len).sum ≤ s.nodes.length * s.baseSize := by
        rw [total, ← wf.capacity_eq]
        omega
      -- the `iovec`s stay inside the stored bytes
      rw [gather_eq covers wf.uniform fits, total, contents, window_take _ _ _ _ (by omega)]

/-- Inside the stored bytes, `setPosition` leaves the state that `read` leaves. -/
theorem setPosition_eq_read (wf : WellFormed s) {k : Nat} (some_byte : 1 ≤ k)
    (enough : k ≤ s.getReadSize) :
    ∃ s', read k s = .ok (window s.contents s.position k) s' ∧
      setPosition (s.position + k) s = .ok () s' := by
  have size_le := wf.size_le
  have position_le := wf.position_le
  rw [wf.getReadSize_eq] at enough
  refine ⟨_, read_eq wf some_byte enough, ?_⟩
  rw [setPosition_eq wf (by omega), Nat.max_eq_left (by omega)]

/-! ### Reachable arrays -/

/-- The states a client can bring an array into: by its calls, by choosing the byte order, and by
storing bytes through the `iovec`s of a `getWriteBuffers`. -/
inductive Reachable : ByteArray → Prop
  | create (heap : Nat → Nat → UInt8) {base : Nat} (positive : 1 ≤ base) :
    Reachable (create heap base)
  | perform {s : ByteArray} (reachable : Reachable s) (op : Op) (allowed : op.Allowed) :
    Reachable (after (perform op s))
  | setIsLittleEndian {s : ByteArray} (reachable : Reachable s) (val : Bool) :
    Reachable (s.setIsLittleEndian val)
  | store {s s' : ByteArray} (reachable : Reachable s) (len : Nat) {count : Nat}
    {buffers : List Iovec} (ran : getWriteBuffers len s = .ok (buffers, count) s')
    (src : List UInt8) (fits : src.length ≤ len) : Reachable (s'.store buffers src)

theorem Reachable.wellFormed (reachable : Reachable s) : WellFormed s := by
  induction reachable with
  | create heap positive => exact create_wellFormed heap positive
  | perform _ op allowed wf =>
    rcases perform_spec wf op allowed with ⟨out, s', ran, wf', -⟩ | thrown
    · rw [ran]
      exact wf'
    · rw [thrown]
      exact wf
  | setIsLittleEndian _ val wf =>
    exact ⟨wf.positive, wf.rooted, wf.uniform, wf.capacity_eq, wf.position_le, wf.size_le,
      wf.cur_eq⟩
  | store _ len ran src fits wf =>
    obtain ⟨buffers', after, ran', wf', position, -, -, room, total, covers⟩ :=
      getWriteBuffers_spec wf len
    rw [ran] at ran'
    cases ran'
    exact (store_wellFormed wf' covers src (by omega) (by omega)).1

end ByteArray

end Dwframe
