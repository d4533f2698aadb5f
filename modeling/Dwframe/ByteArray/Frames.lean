import Dwframe.ByteArray.Strings

/-!
# Strings with a length of two bytes

`writeStringF16` keeps 16 bits of the length and writes all of the bytes. A string that is longer
comes back as its first bytes, and what was written behind it is read from inside the string.
-/
namespace Dwframe.ByteArray

open Lib

/-- Reads of these sizes, one behind the other. -/
def readPieces : List Nat → M (List (List UInt8))
  | [] => return []
  | n :: rest => do
    let piece ← read n
    return piece :: (← readPieces rest)

/-- Written at the cursor with `data` behind it, the string is read back, and then `data` in any
pieces. -/
def Frames (host : Endian) (s : ByteArray) (value data : List UInt8) : Prop :=
  ∃ written back mid, (do writeStringF16 host value; write data) s = .ok () written ∧
    setPosition s.getPosition written = .ok () back ∧
    readStringF16 host back = .ok value mid ∧
    ∀ sizes : List Nat, (∀ n ∈ sizes, 1 ≤ n) → sizes.sum = data.length →
      ∃ pieces final, readPieces sizes mid = .ok pieces final ∧ pieces.flatten = data

/-- The string is turned away, and the array is as it was. -/
def Rejects (host : Endian) (s : ByteArray) (value : List UInt8) : Prop :=
  ∃ fault, writeStringF16 host value s = .error fault s

theorem readPieces_eq {s : ByteArray} {data : List UInt8} (ahead : Ahead s data) (sizes : List Nat)
    (some_bytes : ∀ n ∈ sizes, 1 ≤ n) (total : sizes.sum = data.length) :
    ∃ pieces final, readPieces sizes s = .ok pieces final ∧ pieces.flatten = data := by
  induction sizes generalizing s data with
  | nil =>
    have nothing : data = [] := List.eq_nil_of_length_eq_zero total.symm
    exact ⟨[], s, rfl, nothing.symm⟩
  | cons n rest ih =>
    obtain ⟨first, others⟩ := List.forall_mem_cons.mp some_bytes
    rw [List.sum_cons] at total
    have taken : (data.take n).length = n := by
      rw [List.length_take]
      omega
    have dropped : rest.sum = (data.drop n).length := by
      rw [List.length_drop]
      omega
    have parts : Ahead s (data.take n ++ data.drop n) := by rwa [List.take_append_drop]
    have took := parts.left.read (List.ne_nil_of_length_pos (by omega))
    have behind := parts.right
    rw [taken] at took behind
    obtain ⟨pieces, final, ran, whole⟩ := ih behind others dropped
    refine ⟨data.take n :: pieces, final, ?_, ?_⟩
    · simp only [readPieces, bind_apply, took, ran, pure_apply]
    · rw [List.flatten_cons, whole, List.take_append_drop]

/-- What is written: 16 bits of the length, and all of the string. -/
theorem writeStringF16_writes (host : Endian) (value : List UInt8) :
    Writes (writeStringF16 host value)
      fun order => wire order 2 (value.length % 2 ^ 16) ++ value := by
  have size := Kind.write_writes host .fuint16 (UInt16.ofNat value.length)
  simp only [Kind.encode, UInt16.toNat_ofNat'] at size
  exact size.bind (.write value)

/-- What is read: as many bytes as the two bytes of the length say. -/
theorem readStringF16_apply (host : Endian) {s : ByteArray} {size : Nat} (small : size < 2 ^ 16)
    {bytes : List UInt8} (ahead : Ahead s (wire s.endian 2 size ++ bytes)) :
    readStringF16 host s = read size (s.advance 2) := by
  have value : (UInt16.ofNat size).toNat = size := UInt16.toNat_ofNat_of_lt' small
  have took := Kind.read_reads host .fuint16 (UInt16.ofNat size) s
  simp only [Kind.encode, value, length_wire] at took
  have length := took ahead.left
  simp only [Kind.read] at length
  simp only [readStringF16, readString, bind_apply, length, pure_apply, value]

/-- With the cursor back in front of the string, its first bytes are read, or a null node is
followed. -/
theorem readStringF16_back (host : Endian) {s : ByteArray} {value data : List UInt8}
    (ahead : Ahead s (wire s.endian 2 (value.length % 2 ^ 16) ++ (value ++ data))) :
    readStringF16 host s =
      if value.take (value.length % 2 ^ 16) = [] ∧ s.position + 2 = s.capacity then
        .error .nullNode (s.advance 2)
      else .ok (value.take (value.length % 2 ^ 16))
        (s.advance (2 + value.length % 2 ^ 16)) := by
  -- only the first bytes of the string are asked for
  have small := Nat.mod_lt value.length (show 0 < 2 ^ 16 by decide)
  have behind := ahead.right
  rw [length_wire] at behind
  have whole : value ++ data = value.take (value.length % 2 ^ 16) ++
      (value.drop (value.length % 2 ^ 16) ++ data) := by
    rw [← List.append_assoc, List.take_append_drop]
  rw [whole] at behind
  have taken : (value.take (value.length % 2 ^ 16)).length = value.length % 2 ^ 16 := by
    rw [List.length_take, Nat.min_eq_left (Nat.mod_le ..)]
  have took := read_bytes behind.left
  rw [taken] at took
  rw [readStringF16_apply host small ahead, took]
  simp only [advance_position, advance_capacity, advance_advance]

/-- The state in which the string is read back. -/
theorem frames_back {s : ByteArray} (wf : WellFormed s) (host : Endian) (value data : List UInt8) :
    ∃ back, Ahead back (wire back.endian 2 (value.length % 2 ^ 16) ++ (value ++ data)) ∧
      back.position = s.position ∧ s.position + (2 + value.length + data.length) ≤ back.capacity ∧
      (s.position + (2 + value.length + data.length) = back.capacity ↔
        s.capacity ≤ s.position + (2 + value.length + data.length) ∧
          s.baseSize ∣ s.position + (2 + value.length + data.length)) ∧
      (Frames host s value data ∨ Rejects host s value ↔
        ∃ mid, readStringF16 host back = .ok value mid ∧
          ∀ sizes : List Nat, (∀ n ∈ sizes, 1 ≤ n) → sizes.sum = data.length →
            ∃ pieces final, readPieces sizes mid = .ok pieces final ∧ pieces.flatten = data) := by
  obtain ⟨written, ran, wrote⟩ :=
    (writeStringF16_writes host value).bind (y := fun _ => write data) (.write data) s wf
  obtain ⟨accepting, accepted, -⟩ := writeStringF16_writes host value s wf
  obtain ⟨back, moved, ahead, position, -, endian, capacity⟩ := wrote.ahead wf
  rw [← endian] at ahead
  have room := wrote.wellFormed.position_le_capacity
  have full := wrote.full_iff wf.positive
  have end_position := wrote.position
  simp only [List.append_assoc] at ahead
  simp only [List.length_append, length_wire] at full end_position
  rw [end_position] at room full
  refine ⟨back, ahead, position, capacity ▸ room, capacity ▸ full, ?_⟩
  -- the four calls are functions, so a frame is about these very states
  constructor
  · rintro (⟨written', back', mid, ran', moved', read⟩ | ⟨fault, rejected⟩)
    · rw [ran] at ran'
      cases ran'
      rw [show s.getPosition = s.position from rfl, moved] at moved'
      cases moved'
      exact ⟨mid, read⟩
    · rw [accepted] at rejected
      cases rejected
  · rintro ⟨mid, read⟩
    exact .inl ⟨written, back, mid, ran, moved, read⟩

/-- A longer string is not read back. -/
theorem not_frames_of_long {s : ByteArray} (wf : WellFormed s) (host : Endian)
    {value : List UInt8} (data : List UInt8) (long : 2 ^ 16 ≤ value.length) :
    ¬(Frames host s value data ∨ Rejects host s value) := by
  obtain ⟨back, ahead, -, -, -, frames⟩ := frames_back wf host value data
  rw [frames]
  rintro ⟨mid, read, -⟩
  rw [readStringF16_back host ahead] at read
  split at read
  next => cases read
  next =>
    have same := congrArg List.length (EStateM.Result.ok.inj read).1
    rw [List.length_take] at same
    omega

/-- A string is framed exactly when its length fits 16 bits, unless it is empty, nothing follows
it, and its length ends the capacity. -/
theorem frames_iff {s : ByteArray} (wf : WellFormed s) (host : Endian) (value data : List UInt8) :
    Frames host s value data ∨ Rejects host s value ↔
      value.length < 2 ^ 16 ∧
        ¬(value = [] ∧ data = [] ∧ s.capacity ≤ s.position + 2 ∧ s.baseSize ∣ s.position + 2) := by
  rcases Nat.lt_or_ge value.length (2 ^ 16) with short | long
  · obtain ⟨back, ahead, position, room, full, frames⟩ := frames_back wf host value data
    have took := readStringF16_back host ahead
    rw [Nat.mod_eq_of_lt short] at ahead took
    rw [List.take_length] at took
    -- the length is the last thing in the capacity only where nothing follows it
    have stuck_iff : (value = [] ∧ back.position + 2 = back.capacity) ↔
        value = [] ∧ data = [] ∧ s.capacity ≤ s.position + 2 ∧ s.baseSize ∣ s.position + 2 := by
      refine and_congr_right fun empty => ?_
      subst empty
      rw [position]
      constructor
      · intro at_end
        have nothing : data = [] := by
          apply List.eq_nil_of_length_eq_zero
          simp only [List.length_nil] at room
          omega
        subst nothing
        exact ⟨rfl, full.mp at_end⟩
      · rintro ⟨rfl, used⟩
        exact full.mpr used
    rw [frames, and_iff_right short, ← stuck_iff]
    constructor
    · rintro ⟨mid, read, -⟩ stuck
      rw [took, if_pos stuck] at read
      cases read
    · intro free
      rw [if_neg free] at took
      refine ⟨_, took, fun sizes some_bytes total => ?_⟩
      have behind := ahead.right.right
      rw [length_wire, advance_advance] at behind
      exact readPieces_eq behind sizes some_bytes total
  · exact iff_of_false (not_frames_of_long wf host data long)
      fun both => absurd both.1 (Nat.not_lt.mpr long)

/-- A string of three bytes with two bytes behind it. -/
theorem frames_short :
    Frames .little (create (fun _ _ => 0) 4) [1, 2, 3] [4, 5] ∨
      Rejects .little (create (fun _ _ => 0) 4) [1, 2, 3] :=
  (frames_iff (create_wellFormed _ (show 0 < 4 by decide)) .little [1, 2, 3] [4, 5]).mpr
    ⟨by decide, fun empty => by cases empty.1⟩

/-- A string of 65536 bytes is neither framed nor turned away. -/
theorem frames_long :
    ¬(Frames .little (create (fun _ _ => 0) 4) (List.replicate (2 ^ 16) 1) [4, 5] ∨
      Rejects .little (create (fun _ _ => 0) 4) (List.replicate (2 ^ 16) 1)) :=
  not_frames_of_long (create_wellFormed _ (show 0 < 4 by decide)) .little [4, 5]
    (Nat.le_of_eq List.length_replicate.symm)

end Dwframe.ByteArray
