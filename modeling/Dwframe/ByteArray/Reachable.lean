import Dwframe.ByteArray.Invariant
import Dwframe.Lib.Monad

/-!
# Runs of a `ByteArray`

`Op` lists the calls a client can make; a run performs them one after the other,
going on from whatever state a thrown `out_of_range` left. From a fresh array every
run whose reads ask for at least one byte stays well formed, and none of its calls
follows a null node or copies past a block.
-/
namespace Dwframe.ByteArray

open Lib

inductive Op where
  | write (buf : List UInt8)
  | read (n : Nat)
  | setPosition (v : Nat)
  | clear
  | getWriteBuffers (len : Nat)
  | getReadBuffers (len : Nat)
  | toString
  deriving DecidableEq, Repr

inductive Output where
  | done
  | bytes (bytes : List UInt8)
  | buffers (buffers : List Iovec) (count : Nat)
  deriving DecidableEq, Repr

/-- A `const` member leaves the array as it is. -/
def const {α : Type} (f : ByteArray → Except Fault α) : M α := fun s =>
  match f s with
  | .ok a => .ok a s
  | .error fault => .error fault s

def perform : Op → M Output
  | .write buf => (fun _ => .done) <$> write buf
  | .read n => .bytes <$> read n
  | .setPosition v => (fun _ => .done) <$> setPosition v
  | .clear => fun s => .ok .done s.clear
  | .getWriteBuffers len => (fun r => .buffers r.1 r.2) <$> getWriteBuffers len
  | .getReadBuffers len => (fun r => .buffers r.1 r.2) <$> const fun s => s.getReadBuffers len
  | .toString => .bytes <$> const toString

/-- The state a call leaves behind, thrown exceptions included. -/
def after {α : Type} : EStateM.Result Fault ByteArray α → ByteArray
  | .ok _ s => s
  | .error _ s => s

def run (s : ByteArray) (ops : List Op) : ByteArray :=
  ops.foldl (fun s op => after (perform op s)) s

/-- The only restriction on a client: a read asks for something. -/
def Op.Allowed : Op → Prop
  | .read n => 1 ≤ n
  | _ => True

/-- From a well-formed state a call returns into a well-formed state, or throws
`out_of_range` and changes nothing. -/
theorem perform_spec {s : ByteArray} (wf : WellFormed s) (op : Op) (allowed : op.Allowed) :
    (∃ out s', perform op s = .ok out s' ∧ WellFormed s' ∧ s'.baseSize = s.baseSize) ∨
      perform op s = .error .outOfRange s := by
  cases op with
  | write buf =>
    obtain ⟨s', ran, wf', base, -⟩ := write_spec wf buf
    exact .inl ⟨.done, s', by simp [perform, ran], wf', base⟩
  | read n =>
    by_cases enough : n ≤ s.size - s.position
    · obtain ⟨s', ran, wf', base, -⟩ := read_spec wf allowed enough
      exact .inl ⟨.bytes (window s.contents s.position n), s', by simp [perform, ran], wf', base⟩
    · exact .inr (by simp [perform, read_short wf (Nat.lt_of_not_le enough)])
  | setPosition v =>
    by_cases inside : v ≤ s.capacity
    · obtain ⟨s', ran, wf', base, -⟩ := setPosition_spec wf inside
      exact .inl ⟨.done, s', by simp [perform, ran], wf', base⟩
    · exact .inr (by simp [perform, setPosition_beyond (Nat.lt_of_not_le inside)])
  | clear => exact .inl ⟨.done, s.clear, rfl, clear_wellFormed wf, rfl⟩
  | getWriteBuffers len =>
    by_cases empty : len = 0
    · exact .inl ⟨.buffers [] 0, s, by simp [perform, getWriteBuffers, empty], wf, rfl⟩
    · obtain ⟨wf', room, base, position, -⟩ := addCapacity_spec wf len
      obtain ⟨buffers, ran, -⟩ :=
        buffersFromCur_spec wf' (Nat.pos_of_ne_zero empty) (by rw [position]; exact room)
      exact .inl ⟨.buffers buffers len, s.addCapacity len,
        by simp [perform, getWriteBuffers, empty, ran], wf', base⟩
  | getReadBuffers len =>
    have size_le := wf.size_le
    have position_le := wf.position_le
    have read_size := wf.getReadSize_eq
    -- the request is cut to the bytes that are left to read
    generalize want_eq : (if len > s.getReadSize then s.getReadSize else len) = want
    have want_le : want ≤ s.getReadSize := by
      rw [← want_eq]
      split <;> omega
    by_cases empty : want = 0
    · refine .inl ⟨.buffers [] 0, s, ?_, wf, rfl⟩
      simp [perform, const, getReadBuffers, want_eq, empty]
    · obtain ⟨buffers, ran, -⟩ :=
        buffersFromCur_spec wf (Nat.pos_of_ne_zero empty) (by omega)
      refine .inl ⟨.buffers buffers want, s, ?_, wf, rfl⟩
      simp [perform, const, getReadBuffers, want_eq, empty, ran, bind, Except.bind]
  | toString =>
    exact .inl ⟨.bytes (s.contents.drop s.position), s,
      by simp [perform, const, toString_spec wf], wf, rfl⟩

theorem run_wellFormed {s : ByteArray} (wf : WellFormed s) (ops : List Op)
    (allowed : ∀ op ∈ ops, op.Allowed) :
    WellFormed (run s ops) ∧ (run s ops).baseSize = s.baseSize := by
  induction ops generalizing s with
  | nil => exact ⟨wf, rfl⟩
  | cons op ops ih =>
    obtain ⟨first, others⟩ := List.forall_mem_cons.mp allowed
    simp only [run, List.foldl_cons]
    rcases perform_spec wf op first with ⟨out, s', ran, wf', base⟩ | thrown
    · obtain ⟨wf'', base'⟩ := ih wf' others
      rw [ran]
      exact ⟨wf'', base'.trans base⟩
    · rw [thrown]
      exact ih wf others

/-- In every state that calls on a fresh array lead to, the chain, the counters and
the cached block pointer agree, so no further call follows a null node. -/
theorem reachable_wellFormed (heap : Nat → Nat → UInt8) (base : Nat) (positive : 1 ≤ base)
    (ops : List Op) (allowed : ∀ op ∈ ops, op.Allowed) (s : ByteArray)
    (reached : run (create heap base) ops = s) :
    1 ≤ s.nodes.length ∧ (∀ node ∈ s.nodes, node.size = base) ∧
      s.capacity = s.nodes.length * base ∧ s.position ≤ s.size ∧ s.size ≤ s.capacity ∧
      s.cur = s.nodeAt (s.position / base) ∧ (s.cur = none ↔ s.position = s.capacity) ∧
      ∀ op, op.Allowed → ∀ s', perform op s ≠ .error .nullNode s' ∧
        perform op s ≠ .error .overrun s' := by
  obtain ⟨wf, base_eq⟩ := run_wellFormed (create_wellFormed heap positive) ops allowed
  rw [reached] at wf base_eq
  have base_eq : s.baseSize = base := base_eq
  refine ⟨List.length_pos_iff.mpr wf.rooted, base_eq ▸ wf.uniform, base_eq ▸ wf.capacity_eq,
    wf.position_le, wf.size_le, base_eq ▸ wf.cur_eq, wf.cur_none_iff, ?_⟩
  intro op op_allowed s'
  rcases perform_spec wf op op_allowed with ⟨out, after, ran, -⟩ | thrown
  · simp [ran]
  · simp [thrown]

/-- Three bytes into blocks of two, back to the block edge, and a throw. -/
theorem reachable_wellFormed_at_block_edge :
    1 ≤ 2 ∧ (∀ op ∈ [Op.write [1, 2, 3], .setPosition 4, .read 1], op.Allowed) ∧
      (run (create (fun _ _ => 0) 2) [.write [1, 2, 3], .setPosition 4, .read 1]).cur = none := by
  have allowed : ∀ op ∈ [Op.write [1, 2, 3], .setPosition 4, .read 1], op.Allowed := by
    simp [Op.Allowed]
  have wf := reachable_wellFormed (fun _ _ => 0) 2 (by decide) _ allowed _ rfl
  exact ⟨by decide, allowed, wf.2.2.2.2.2.2.1.mpr (by decide)⟩

end Dwframe.ByteArray
