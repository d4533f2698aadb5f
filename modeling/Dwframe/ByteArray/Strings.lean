import Mathlib.Data.Nat.Log
import Dwframe.ByteArray.RoundTrip

/-!
# Strings come back, unless an empty one ends the capacity

A string is read in two steps, its length and then that many bytes, and the second step looks at
`m_cur` even when there is no byte to take. `write`, `toString` and `getReadBuffers` return early
in that case. `read` does not: it fails exactly when the cursor stands at the end of the capacity,
which is where an empty string comes last and its length fills the last block.
-/
namespace Dwframe.ByteArray

open Lib

/-- The string members whose length field holds every length below `2^32`. -/
inductive StringKind where
  | f32
  | f64
  | vint
  deriving DecidableEq, Repr

namespace StringKind

def write (host : Endian) : StringKind → List UInt8 → M Unit
  | f32 => writeStringF32 host
  | f64 => writeStringF64 host
  | vint => writeStringVint

def read (host : Endian) : StringKind → M (List UInt8)
  | f32 => readStringF32 host
  | f64 => readStringF64 host
  | vint => readStringVint

/-- The bytes of the length field. -/
def lengthBytes (order : Endian) : StringKind → Nat → List UInt8
  | f32, size => wire order 4 size
  | f64, size => wire order 8 size
  | vint, size => varint 10 size

/-- How many bytes the length field takes. -/
def lengthSize : StringKind → Nat → Nat
  | f32, _ => 4
  | f64, _ => 8
  | vint, size => Nat.log 128 size + 1

end StringKind

abbrev Text : Type := StringKind × List UInt8

def writeStrings (host : Endian) : List Text → M Unit
  | [] => return ()
  | (kind, value) :: rest => do
    kind.write host value
    writeStrings host rest

def readStrings (host : Endian) : List StringKind → M (List (List UInt8))
  | [] => return []
  | kind :: rest => do
    let value ← kind.read host
    return value :: (← readStrings host rest)

/-- The number of bytes the strings take with their lengths. -/
def encodedSize (strings : List Text) : Nat :=
  (strings.map fun (kind, value) => kind.lengthSize value.length + value.length).sum

/-- Written at the cursor of `s` and read back, the strings are the same and the cursor is again
behind them. -/
def RoundTrips (host : Endian) (s : ByteArray) (strings : List Text) : Prop :=
  ∃ written back final, writeStrings host strings s = .ok () written ∧
    setPosition s.getPosition written = .ok () back ∧
    readStrings host (strings.map Prod.fst) back = .ok (strings.map Prod.snd) final ∧
    final.getPosition = written.getPosition

/-! ### One string -/

theorem length_varint {groups value : Nat} (fits : value < 128 ^ (groups + 1)) :
    (varint (groups + 1) value).length = Nat.log 128 value + 1 := by
  induction groups generalizing value with
  | zero =>
    have small : value < 128 := by omega
    rw [varint_small small, Nat.log_of_lt small]
    rfl
  | succ groups ih =>
    rcases Nat.lt_or_ge value 128 with small | large
    · rw [varint_small small, Nat.log_of_lt small]
      rfl
    · rw [varint_large large, List.length_cons, ih (next_groups fits),
        Nat.log_of_one_lt_of_le (by decide) large]

namespace StringKind

variable {size : Nat}

theorem length_lengthBytes (order : Endian) (kind : StringKind) (short : size < 2 ^ 32) :
    (kind.lengthBytes order size).length = kind.lengthSize size := by
  cases kind with
  | f32 | f64 => exact length_wire order _ size
  | vint => exact length_varint (Nat.lt_of_lt_of_le short (by decide))

theorem write_writes (host : Endian) (kind : StringKind) {value : List UInt8}
    (short : value.length < 2 ^ 32) :
    Writes (kind.write host value) fun order => kind.lengthBytes order value.length ++ value := by
  have size32 : (UInt32.ofNat value.length).toNat = value.length := UInt32.toNat_ofNat_of_lt' short
  have size64 : (UInt64.ofNat value.length).toNat = value.length :=
    UInt64.toNat_ofNat_of_lt' (Nat.lt_trans short (by decide))
  cases kind with
  | f32 =>
    have size := Kind.write_writes host .fuint32 (UInt32.ofNat value.length)
    simp only [Kind.encode, size32] at size
    exact size.bind (.write value)
  | f64 =>
    have size := Kind.write_writes host .fuint64 (UInt64.ofNat value.length)
    simp only [Kind.encode, size64] at size
    exact size.bind (.write value)
  | vint =>
    have size := Kind.write_writes host .uint64 (UInt64.ofNat value.length)
    simp only [Kind.encode, size64] at size
    exact size.bind (.write value)

/-- The reader of the length field. -/
def readLength (host : Endian) : StringKind → M Nat
  | f32 => do return (← readFuint32 host).toNat
  | f64 => do return (← readFuint64 host).toNat
  | vint => do return (← readUint64).toNat

theorem read_eq (host : Endian) (kind : StringKind) :
    kind.read host = readString (kind.readLength host) := by
  cases kind <;> rfl

theorem readLength_reads (host : Endian) (kind : StringKind) (short : size < 2 ^ 32) :
    Reads (kind.readLength host) (kind.lengthBytes · size) size := by
  have size32 : (UInt32.ofNat size).toNat = size := UInt32.toNat_ofNat_of_lt' short
  have size64 : (UInt64.ofNat size).toNat = size :=
    UInt64.toNat_ofNat_of_lt' (Nat.lt_trans short (by decide))
  cases kind with
  | f32 =>
    have took := (Kind.read_reads host .fuint32 (UInt32.ofNat size)).map UInt32.toNat
    simp only [Kind.encode, size32] at took
    exact took
  | f64 =>
    have took := (Kind.read_reads host .fuint64 (UInt64.ofNat size)).map UInt64.toNat
    simp only [Kind.encode, size64] at took
    exact took
  | vint =>
    have took := (Kind.read_reads host .uint64 (UInt64.ofNat size)).map UInt64.toNat
    simp only [Kind.encode, size64] at took
    exact took

end StringKind

/-- A read of no bytes follows `m_cur` all the same. -/
theorem read_zero {s : ByteArray} (wf : WellFormed s) :
    read 0 s = if s.position = s.capacity then .error .nullNode s else .ok [] s := by
  have le := wf.position_le_capacity
  unfold read
  rw [if_neg (Nat.not_lt_zero _)]
  by_cases full : s.position = s.capacity
  · rw [if_pos full, wf.cur_none_iff.mpr full]
  · obtain ⟨found, inside⟩ := wf.cur_some (by omega)
    have walked : readLoop (s.nodes.drop (s.position / s.baseSize)) (s.position % s.baseSize) 0 =
        .ok ([], 0) := by
      rw [List.drop_eq_getElem_cons inside]
      rfl
    have stayed := advance_zero wf
    rw [advance] at stayed
    simp only [found, walked, if_neg full, Nat.add_zero] at stayed ⊢
    rw [stayed]

theorem read_bytes {s : ByteArray} {bytes : List UInt8} (ahead : Ahead s bytes) :
    read bytes.length s =
      if bytes = [] ∧ s.position = s.capacity then .error .nullNode s
      else .ok bytes (s.advance bytes.length) := by
  by_cases nothing : bytes = []
  · subst nothing
    rw [List.length_nil, read_zero ahead.wellFormed, advance_zero ahead.wellFormed]
    simp only [true_and]
  · rw [if_neg fun both => nothing both.1]
    exact ahead.read nothing

/-- Reading a string back fails only for an empty one behind which the capacity ends. -/
theorem StringKind.read_string (host : Endian) (kind : StringKind) {s : ByteArray}
    {value : List UInt8} (short : value.length < 2 ^ 32)
    (ahead : Ahead s (kind.lengthBytes s.endian value.length ++ value)) :
    kind.read host s =
      if value = [] ∧ s.position + kind.lengthSize value.length = s.capacity then
        .error .nullNode (s.advance (kind.lengthSize value.length))
      else .ok value (s.advance (kind.lengthSize value.length + value.length)) := by
  have size := kind.length_lengthBytes s.endian short
  have took := kind.readLength_reads host short s ahead.left
  have rest := read_bytes ahead.right
  rw [size] at took rest
  simp only [advance_position, advance_capacity, advance_advance] at rest
  rw [kind.read_eq, readString, bind_apply, took]
  exact rest

/-! ### All strings -/

def encodeStrings (order : Endian) (strings : List Text) : List UInt8 :=
  strings.flatMap fun (kind, value) => kind.lengthBytes order value.length ++ value

/-- Every length fits in the length field of its kind. -/
def Short (strings : List Text) : Prop := ∀ string ∈ strings, string.2.length < 2 ^ 32

theorem length_encodeStrings (order : Endian) {strings : List Text} (short : Short strings) :
    (encodeStrings order strings).length = encodedSize strings := by
  induction strings with
  | nil => rfl
  | cons string rest ih =>
    have first := string.1.length_lengthBytes order (short string (List.mem_cons_self ..))
    have behind := ih fun other member => short other (List.mem_cons_of_mem _ member)
    simp only [encodeStrings, encodedSize, List.flatMap_cons, List.map_cons, List.sum_cons,
      List.length_append, first] at behind ⊢
    rw [behind]

theorem writeStrings_writes (host : Endian) {strings : List Text} (short : Short strings) :
    Writes (writeStrings host strings) fun order => encodeStrings order strings := by
  induction strings with
  | nil => exact .pure
  | cons string rest ih =>
    have first := string.1.write_writes host (short string (List.mem_cons_self ..))
    exact first.bind (ih fun other member => short other (List.mem_cons_of_mem _ member))

/-- The last string is empty. -/
def EndsEmpty (strings : List Text) : Prop := ∃ kind, strings.getLast? = some (kind, [])

theorem lengthSize_pos (kind : StringKind) (size : Nat) : 0 < kind.lengthSize size := by
  cases kind <;> simp [StringKind.lengthSize]

theorem encodedSize_cons (kind : StringKind) (value : List UInt8) (rest : List Text) :
    encodedSize ((kind, value) :: rest) =
      kind.lengthSize value.length + value.length + encodedSize rest := by
  simp only [encodedSize, List.map_cons, List.sum_cons]

/-- Strings take at least a byte each. -/
theorem encodedSize_eq_zero {strings : List Text} (nothing : encodedSize strings = 0) :
    strings = [] := by
  cases strings with
  | nil => rfl
  | cons string rest =>
    have positive := lengthSize_pos string.1 string.2.length
    rw [encodedSize_cons] at nothing
    omega

/-- The last string is empty and behind it the capacity of `s` ends. -/
def Stuck (s : ByteArray) (strings : List Text) : Prop :=
  EndsEmpty strings ∧ s.position + encodedSize strings = s.capacity

theorem not_stuck_nil (s : ByteArray) : ¬Stuck s [] := by
  rintro ⟨⟨kind, last⟩, -⟩
  cases last

/-- Past a string that can be read, the rest is stuck exactly when the whole list is. -/
theorem stuck_cons {s : ByteArray} {kind : StringKind} {value : List UInt8} {rest : List Text}
    (readable : ¬(value = [] ∧ s.position + kind.lengthSize value.length = s.capacity)) :
    Stuck s ((kind, value) :: rest) ↔
      Stuck (s.advance (kind.lengthSize value.length + value.length)) rest := by
  have position : s.position + encodedSize ((kind, value) :: rest) =
      s.position + (kind.lengthSize value.length + value.length) + encodedSize rest := by
    rw [encodedSize_cons]
    omega
  cases rest with
  | nil =>
    refine iff_of_false ?_ (not_stuck_nil _)
    rintro ⟨⟨kind', last⟩, full⟩
    cases last
    exact readable ⟨rfl, full⟩
  | cons next more =>
    rw [Stuck, Stuck, position]
    exact Iff.rfl

/-- Reading the strings back comes to its end, or stops at the null node behind the last one. -/
theorem readStrings_eq (host : Endian) {strings : List Text} {s : ByteArray}
    (short : Short strings) (ahead : Ahead s (encodeStrings s.endian strings)) :
    (Stuck s strings → ∃ s', readStrings host (strings.map Prod.fst) s = .error .nullNode s') ∧
    (¬Stuck s strings → readStrings host (strings.map Prod.fst) s =
      .ok (strings.map Prod.snd) (s.advance (encodedSize strings))) := by
  induction strings generalizing s with
  | nil =>
    refine ⟨fun stuck => absurd stuck (not_stuck_nil s), fun _ => ?_⟩
    rw [show encodedSize [] = 0 from rfl, advance_zero ahead.wellFormed]
    rfl
  | cons string rest ih =>
    obtain ⟨kind, value⟩ := string
    have short_value : value.length < 2 ^ 32 := short (kind, value) (List.mem_cons_self ..)
    have short_rest : Short rest := fun other member => short other (List.mem_cons_of_mem _ member)
    have parts : Ahead s ((kind.lengthBytes s.endian value.length ++ value) ++
        encodeStrings s.endian rest) := ahead
    have took := kind.read_string host short_value parts.left
    have behind := parts.right
    rw [List.length_append, kind.length_lengthBytes _ short_value] at behind
    by_cases blocked : value = [] ∧ s.position + kind.lengthSize value.length = s.capacity
    · -- the bytes of a further string would lie beyond the capacity
      have none_left : rest = [] := by
        have fits := behind.enough
        have size_le := ahead.wellFormed.size_le
        rw [length_encodeStrings _ short_rest] at fits
        simp only [advance_position, advance_size] at fits
        exact encodedSize_eq_zero (by omega)
      obtain ⟨rfl, full⟩ := blocked
      subst none_left
      -- the length is read, and the read of no bytes finds no node
      rw [if_pos ⟨rfl, full⟩] at took
      refine ⟨fun _ => ⟨s.advance (kind.lengthSize 0), ?_⟩,
        fun free => absurd ⟨⟨kind, rfl⟩, full⟩ free⟩
      simp only [List.map_cons, readStrings, bind_apply, took, List.length_nil]
    · rw [if_neg blocked] at took
      -- the string comes back, and the rest is read from behind it
      obtain ⟨stops, ends⟩ := ih short_rest behind
      rw [stuck_cons blocked]
      constructor
      · intro stuck
        obtain ⟨s', failed⟩ := stops stuck
        refine ⟨s', ?_⟩
        simp only [List.map_cons, readStrings, bind_apply, took, failed]
      · intro free
        simp only [List.map_cons, readStrings, bind_apply, took, ends free, pure_apply,
          advance_advance, encodedSize_cons]

/-- Strings come back from every state and at every offset, except that an empty string written
last cannot be read where it ends at the end of the capacity. -/
theorem strings_round_trip_iff {s : ByteArray} (reachable : Reachable s) (host : Endian)
    {strings : List Text} (short : ∀ string ∈ strings, string.2.length < 2 ^ 32) :
    RoundTrips host s strings ↔
      ¬((∃ kind, strings.getLast? = some (kind, [])) ∧
        s.capacity ≤ s.position + encodedSize strings ∧
        s.baseSize ∣ s.position + encodedSize strings) := by
  have wf := reachable.wellFormed
  obtain ⟨written, ran, wrote⟩ := writeStrings_writes host short s wf
  -- after the writes the cursor goes back, and all strings lie ahead of it
  obtain ⟨back, moved, ahead, position, -, endian, capacity⟩ := wrote.ahead wf
  have size := length_encodeStrings s.endian short
  have full := wrote.full_iff wf.positive
  rw [wrote.position, size] at full
  rw [← endian] at ahead
  obtain ⟨stops, ends⟩ := readStrings_eq host short ahead
  have stuck_iff : Stuck back strings ↔ (∃ kind, strings.getLast? = some (kind, [])) ∧
      s.capacity ≤ s.position + encodedSize strings ∧
      s.baseSize ∣ s.position + encodedSize strings := by
    rw [← full, Stuck, position, capacity]
    exact Iff.rfl
  rw [← stuck_iff]
  constructor
  · rintro ⟨written', back', final, ran', moved', took, -⟩ stuck
    obtain ⟨s', failed⟩ := stops stuck
    rw [ran] at ran'
    cases ran'
    rw [show s.getPosition = s.position from rfl, moved] at moved'
    cases moved'
    rw [failed] at took
    cases took
  · intro free
    refine ⟨written, back, _, ran, moved, ends free, ?_⟩
    simp only [getPosition, advance_position, position, wrote.position, size]

/-- In blocks of four bytes, two strings that end two bytes before the end of a block. -/
theorem strings_round_trip_iff_open_block :
    RoundTrips .little (create (fun _ _ => 0) 4) [(.f32, [7]), (.vint, [])] :=
  (strings_round_trip_iff (.create _ (by decide)) .little (by decide)).mpr
    fun stuck => absurd stuck.2.2 (by decide +kernel)

/-- With blocks of one byte, the length of an empty string fills its block: no node follows. -/
theorem empty_string_at_end_of_block :
    ∃ s, Reachable s ∧ ¬RoundTrips .little s [(.vint, [])] := by
  refine ⟨create (fun _ _ => 0) 1, .create _ (by decide), ?_⟩
  rintro ⟨written, back, final, ran, moved, took, -⟩
  cases ran
  cases moved
  cases took

end Dwframe.ByteArray
