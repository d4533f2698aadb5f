import Dwframe.ByteArray.Buffers

/-!
# `SocketStream` on a `ByteArray`

`read` hands the `iovec`s of `getWriteBuffers` to `recvmsg` and moves the cursor by what it
reports; `write` does the same with `getReadBuffers` and `sendmsg`. The kernel is a parameter: it
fails, or it transfers some of the bytes it was offered. With `length` 0 there is no `iovec` and
`&iovs[0]` is an address that nothing is read through.
-/
open Dwframe.Lib Dwframe.ByteArray

namespace Dwframe

namespace SocketStream

/-- `read(ba, length)`. `recv` gives the bytes that `recvmsg` stored, or fails with -1. -/
def read (connected : Bool) (recv : List Iovec → Option (List UInt8)) (length : Nat) : M Int :=
  fun s =>
    if !connected then .ok (-1) s
    else
      match getWriteBuffers length s with
      | .error fault s => .error fault s
      | .ok (iovs, _) s =>
        match recv iovs with
        | none => .ok (-1) s
        | some bytes =>
          let s := s.store iovs bytes
          -- the cursor moves by what arrived, not by what was asked for
          let rt : Int := bytes.length
          if rt > 0 then
            match setPosition (s.getPosition + bytes.length) s with
            | .error fault s => .error fault s
            | .ok () s => .ok rt s
          else .ok rt s

/-- `write(ba, length)`: its result, and the bytes that went out. `send` gives how many of the
bytes it is offered `sendmsg` took, or fails with -1. -/
def write (connected : Bool) (send : List UInt8 → Option Nat) (length : Nat) :
    M (Int × List UInt8) := fun s =>
  if !connected then .ok (-1, []) s
  else
    match s.getReadBuffers length with
    | .error fault => .error fault s
    | .ok (iovs, _) =>
      let data := gather s.nodes iovs
      match send data with
      | none => .ok (-1, []) s
      | some taken =>
        let rt : Int := taken
        if rt > 0 then
          match setPosition (s.getPosition + taken) s with
          | .error fault s => .error fault s
          | .ok () s => .ok (rt, data.take taken) s
        else .ok (rt, []) s

end SocketStream

namespace ByteArray

/-- The two arrays look the same to a client. -/
structure Agrees (s t : ByteArray) : Prop where
  contents : s.contents = t.contents
  size : s.getSize = t.getSize
  position : s.getPosition = t.getPosition

variable {s : ByteArray}

/-- Storing through `getWriteBuffers` and moving the cursor agrees with `write`. -/
theorem getWriteBuffers_agrees (wf : WellFormed s) (len : Nat) :
    ∃ buffers grown, getWriteBuffers len s = .ok (buffers, len) grown ∧
      (buffers.map Iovec.len).sum = len ∧ buffers.Pairwise Iovec.Disjoint ∧ Agrees grown s ∧
      ∀ src : List UInt8, src.length ≤ len → ∃ stored written,
        setPosition (grown.getPosition + src.length) (grown.store buffers src) = .ok () stored ∧
        write src s = .ok () written ∧ Agrees stored written := by
  obtain ⟨buffers, grown, ran, wf', position, size, same, room, total, covers⟩ :=
    getWriteBuffers_spec wf len
  refine ⟨buffers, grown, ran, total, covers_disjoint covers, ⟨same, size, position⟩, ?_⟩
  intro src fits
  obtain ⟨stored, moved, -, position', size', contents'⟩ :=
    store_setPosition wf' covers src (by omega) (by omega)
  obtain ⟨written, wrote, -, -, position'', size'', contents''⟩ := write_spec wf src
  refine ⟨stored, written, moved, wrote, ?_, ?_, ?_⟩
  · rw [contents', contents'', same, position]
  · rw [getSize, getSize, size', size'', size, position]
  · rw [getPosition, getPosition, position', position'', position]

/-- What `getReadBuffers` offers is what `read` returns. -/
theorem getReadBuffers_agrees (wf : WellFormed s) (len : Nat) :
    ∃ buffers, s.getReadBuffers len = .ok (buffers, min len s.getReadSize) ∧
      gather s.nodes buffers = (s.contents.drop s.position).take (min len s.getReadSize) ∧
      ∀ k, 1 ≤ k → k ≤ min len s.getReadSize → ∃ s',
        read k s = .ok ((gather s.nodes buffers).take k) s' ∧
        setPosition (s.getPosition + k) s = .ok () s' := by
  obtain ⟨buffers, ran, gathered⟩ := getReadBuffers_spec wf len
  refine ⟨buffers, ran, gathered, fun k some_byte enough => ?_⟩
  obtain ⟨s', took, moved⟩ := setPosition_eq_read wf some_byte (Nat.le_trans enough (by omega))
  refine ⟨s', ?_, moved⟩
  rw [took, gathered, window, window, List.take_take, Nat.min_eq_left enough]

end ByteArray

namespace SocketStream

variable {s : ByteArray}

/-- `SocketStream::read` writes the bytes that the socket reports, and no others. -/
theorem read_spec (wf : WellFormed s) (recv : List Iovec → Option (List UInt8))
    (honest : ∀ iovs bytes, recv iovs = some bytes →
      bytes.length ≤ (iovs.map Iovec.len).sum) (len : Nat) :
    ∃ iovs, (iovs.map Iovec.len).sum = len ∧
      match recv iovs with
      | none => ∃ s', read true recv len s = .ok (-1) s' ∧ Agrees s' s
      | some bytes => ∃ s' written, read true recv len s = .ok bytes.length s' ∧
          ByteArray.write bytes s = .ok () written ∧ Agrees s' written := by
  obtain ⟨iovs, grown, ran, total, -, same, stores⟩ := getWriteBuffers_agrees wf len
  refine ⟨iovs, total, ?_⟩
  cases received : recv iovs with
  | none => exact ⟨grown, by simp [read, ran, received], same⟩
  | some bytes =>
    have fits := honest iovs bytes received
    rw [total] at fits
    obtain ⟨stored, written, moved, wrote, agrees⟩ := stores bytes fits
    by_cases nothing : bytes = []
    · -- the peer has closed: the cursor is not moved
      subst nothing
      cases wrote
      refine ⟨grown, s, ?_, rfl, same⟩
      simp [read, ran, received, store, scatter_nil]
    · refine ⟨stored, written, ?_, wrote, agrees⟩
      have moved : setPosition ((grown.store iovs bytes).getPosition + bytes.length)
          (grown.store iovs bytes) = .ok () stored := moved
      have positive : (bytes.length : Int) > 0 := by
        have := List.length_pos_iff.mpr nothing
        omega
      simp only [read, Bool.not_true, Bool.false_eq_true, if_false, ran, received, if_pos positive,
        moved]

/-- `SocketStream::write` takes the bytes that the socket reports, and no others. -/
theorem write_spec (wf : WellFormed s) (send : List UInt8 → Option Nat)
    (honest : ∀ data taken, send data = some taken → taken ≤ data.length) (len : Nat) :
    ∃ data, data = (s.contents.drop s.position).take (min len s.getReadSize) ∧
      match send data with
      | none => write true send len s = .ok (-1, []) s
      | some 0 => write true send len s = .ok (0, []) s
      | some (k + 1) => ∃ s', write true send len s = .ok ((k + 1 : Nat), data.take (k + 1)) s' ∧
          ByteArray.read (k + 1) s = .ok (data.take (k + 1)) s' := by
  obtain ⟨iovs, ran, gathered, reads⟩ := getReadBuffers_agrees wf len
  refine ⟨gather s.nodes iovs, gathered, ?_⟩
  cases reported : send (gather s.nodes iovs) with
  | none => simp [write, ran, reported]
  | some taken =>
    cases taken with
    | zero => simp [write, ran, reported]
    | succ k =>
      have fits := honest _ _ reported
      have length : (gather s.nodes iovs).length ≤ min len s.getReadSize := by
        rw [gathered]
        exact List.length_take_le _ _
      obtain ⟨s', took, moved⟩ := reads (k + 1) (Nat.succ_pos k) (Nat.le_trans fits length)
      refine ⟨s', ?_, took⟩
      have positive : ((k + 1 : Nat) : Int) > 0 := by omega
      simp only [write, Bool.not_true, Bool.false_eq_true, if_false, ran, reported,
        if_pos positive, moved]

/-- From every state of an array the scatter and gather paths agree with `write` and `read`, and a
transfer on a socket moves the bytes it reports. -/
theorem transfers_agree (reachable : Reachable s) (len : Nat) :
    (∃ buffers grown, getWriteBuffers len s = .ok (buffers, len) grown ∧
      (buffers.map Iovec.len).sum = len ∧ buffers.Pairwise Iovec.Disjoint ∧ Agrees grown s ∧
      ∀ src : List UInt8, src.length ≤ len → ∃ stored written,
        setPosition (grown.getPosition + src.length) (grown.store buffers src) = .ok () stored ∧
        ByteArray.write src s = .ok () written ∧ Agrees stored written) ∧
    (∃ buffers, s.getReadBuffers len = .ok (buffers, min len s.getReadSize) ∧
      gather s.nodes buffers = (s.contents.drop s.position).take (min len s.getReadSize) ∧
      ∀ k, 1 ≤ k → k ≤ min len s.getReadSize → ∃ s',
        ByteArray.read k s = .ok ((gather s.nodes buffers).take k) s' ∧
        setPosition (s.getPosition + k) s = .ok () s') ∧
    (∀ recv : List Iovec → Option (List UInt8),
      (∀ iovs bytes, recv iovs = some bytes → bytes.length ≤ (iovs.map Iovec.len).sum) →
      ∃ iovs, (iovs.map Iovec.len).sum = len ∧
        match recv iovs with
        | none => ∃ s', read true recv len s = .ok (-1) s' ∧ Agrees s' s
        | some bytes => ∃ s' written, read true recv len s = .ok bytes.length s' ∧
            ByteArray.write bytes s = .ok () written ∧ Agrees s' written) ∧
    ∀ send : List UInt8 → Option Nat,
      (∀ data taken, send data = some taken → taken ≤ data.length) →
      ∃ data, data = (s.contents.drop s.position).take (min len s.getReadSize) ∧
        match send data with
        | none => write true send len s = .ok (-1, []) s
        | some 0 => write true send len s = .ok (0, []) s
        | some (k + 1) => ∃ s', write true send len s = .ok ((k + 1 : Nat), data.take (k + 1)) s' ∧
            ByteArray.read (k + 1) s = .ok (data.take (k + 1)) s' := by
  have wf := reachable.wellFormed
  exact ⟨getWriteBuffers_agrees wf len, getReadBuffers_agrees wf len,
    fun recv honest => read_spec wf recv honest len,
    fun send honest => write_spec wf send honest len⟩

/-- Three bytes in blocks of two, the cursor on the second; two are asked for. -/
theorem transfers_agree_across_blocks :
    ∃ s : ByteArray, Reachable s ∧ s.contents = [1, 2, 3] ∧ s.getPosition = 1 ∧
      ∃ buffers, s.getReadBuffers 2 = .ok (buffers, 2) ∧ gather s.nodes buffers = [2, 3] := by
  have reachable : Reachable (after (perform (.setPosition 1)
      (after (perform (.write [1, 2, 3]) (create (fun _ _ => 0) 2))))) :=
    ((Reachable.create _ (by decide)).perform (.write [1, 2, 3]) trivial).perform (.setPosition 1)
      trivial
  obtain ⟨-, ⟨buffers, ran, gathered, -⟩, -⟩ := transfers_agree reachable 2
  exact ⟨_, reachable, by decide +kernel, by decide +kernel, buffers, ran, gathered⟩

end SocketStream

end Dwframe
