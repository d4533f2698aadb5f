import Dwframe.ByteArray.Strings

/-!
# Reads that find too few bytes

A typed read is one read of the array or several, the length of a string before its bytes, a
varint byte by byte. Each of them throws before it moves the cursor, but the ones before it have
moved it. So a read that finds too few bytes leaves the array alone exactly when its first part
does.
-/
namespace Dwframe.ByteArray

open Lib

/-- The members that read a value or a string with its length. -/
inductive TypedRead where
  | value (kind : Kind)
  | stringF16
  | stringF32
  | stringF64
  | stringVint
  deriving DecidableEq, Repr

/-- The number that `bytes` are in the order of the stream. -/
def unwire (order : Endian) (bytes : List UInt8) : Nat := ofNative order bytes

/-- The varint at the front of the bytes, of at most so many groups from bit `i` on: its value and
its size, nothing if it is not complete. -/
def decodeVarint (w : Nat) : Nat → Nat → List UInt8 → Option (Nat × Nat)
  | 0, _, _ => some (0, 0)
  | _ + 1, _, [] => none
  | groups + 1, i, b :: rest =>
    if b < 0x80 then some ((b.toNat <<< i) % 2 ^ w, 1)
    else (decodeVarint w groups (i + 7) rest).map fun (value, size) =>
      (((b &&& 0x7F).toNat <<< i) % 2 ^ w ||| value, size + 1)

namespace Kind

/-- A value of fixed width, or a varint of so many bits and groups. -/
inductive Layout where
  | fixed (size : Nat)
  | varint (bits groups : Nat)
  deriving DecidableEq, Repr

def layout : Kind → Layout
  | fint8 | fuint8 => .fixed 1
  | fint16 | fuint16 => .fixed 2
  | fint32 | fuint32 | float => .fixed 4
  | fint64 | fuint64 | double => .fixed 8
  | int32 | uint32 => .varint 32 5
  | int64 | uint64 => .varint 64 10

end Kind

/-- The number at the front of the bytes and its size, nothing if the bytes end inside it. -/
def Kind.Layout.front (order : Endian) : Kind.Layout → List UInt8 → Option (Nat × Nat)
  | fixed size, bytes =>
    if size ≤ bytes.length then some (unwire order (bytes.take size), size) else none
  | varint bits groups, bytes => decodeVarint bits groups 0 bytes

/-- How many bytes the first read of the array asks for. -/
def Kind.Layout.first : Kind.Layout → Nat
  | fixed size => size
  | varint _ _ => 1

namespace TypedRead

def Carrier : TypedRead → Type
  | value kind => kind.Carrier
  | _ => List UInt8

def read (host : Endian) : (r : TypedRead) → M r.Carrier
  | value kind => kind.read host
  | stringF16 => readStringF16 host
  | stringF32 => readStringF32 host
  | stringF64 => readStringF64 host
  | stringVint => readStringVint

/-- What is read first: the value, or the length of the string. -/
def layout : TypedRead → Kind.Layout
  | value kind => kind.layout
  | stringF16 => .fixed 2
  | stringF32 => .fixed 4
  | stringF64 => .fixed 8
  | stringVint => .varint 64 10

/-- The size of the encoded value at the front of the bytes, as far as they tell it. -/
def extent (order : Endian) (r : TypedRead) (bytes : List UInt8) : Option Nat :=
  (r.layout.front order bytes).map fun (number, size) =>
    match r with
    | value _ => size
    | _ => size + number

end TypedRead

/-- The bytes that are left to read. -/
def unread (s : ByteArray) : List UInt8 := s.contents.drop s.position

/-- The unread bytes hold the whole encoded value. -/
def Holds (s : ByteArray) (r : TypedRead) : Prop :=
  ∃ n, r.extent s.endian s.unread = some n ∧ n ≤ s.unread.length

/-- With too few bytes the read throws and leaves the array as it was. -/
def Atomic (host : Endian) (s : ByteArray) (r : TypedRead) : Prop :=
  ¬s.Holds r → r.read host s = .error .outOfRange s

/-! ### The parts of a read -/

theorem length_unread {s : ByteArray} (wf : WellFormed s) :
    s.unread.length = s.size - s.position := by
  rw [unread, List.length_drop, wf.length_contents]

theorem ahead_unread {s : ByteArray} (wf : WellFormed s) : Ahead s s.unread :=
  ⟨wf, List.prefix_refl _⟩

/-- Any bytes are those of the number they are. -/
theorem wire_unwire (order : Endian) (bytes : List UInt8) :
    wire order bytes.length (unwire order bytes) = bytes ∧
      unwire order bytes < 256 ^ bytes.length := by
  have bound : ∀ bytes : List UInt8, ofBytes bytes < 256 ^ bytes.length := by
    intro bytes
    induction bytes with
    | nil => decide
    | cons b rest ih =>
      have low := b.toNat_lt
      rw [ofBytes, List.length_cons, Nat.pow_succ]
      omega
  cases order with
  | little => exact ⟨toBytes_ofBytes bytes, bound bytes⟩
  | big =>
    have back := toBytes_ofBytes bytes.reverse
    have small := bound bytes.reverse
    rw [List.length_reverse] at back small
    exact ⟨by rw [wire, unwire, ofNative, back, List.reverse_reverse], small⟩

theorem advance_wellFormed {s : ByteArray} (wf : WellFormed s) {n : Nat}
    (inside : n ≤ s.unread.length) : WellFormed (s.advance n) := by
  have position_le := wf.position_le
  rw [length_unread wf] at inside
  exact wf.moved (by omega) wf.size_le

@[simp] theorem unread_advance (s : ByteArray) (n : Nat) :
    (s.advance n).unread = s.unread.drop n := by
  rw [unread, unread, advance_contents, advance_position, List.drop_drop]

@[simp] theorem advance_endian (s : ByteArray) (n : Nat) : (s.advance n).endian = s.endian := rfl

theorem advance_eq_self {s : ByteArray} (wf : WellFormed s) (n : Nat) :
    s.advance n = s ↔ n = 0 := by
  constructor
  · intro same
    have position := congrArg ByteArray.position same
    rw [advance_position] at position
    omega
  · rintro rfl
    exact advance_zero wf

theorem readFixed_front (host : Endian) {n : Nat} (some_byte : 0 < n) {s : ByteArray}
    (wf : WellFormed s) :
    readFixed host n s =
      if n ≤ s.unread.length then .ok (unwire s.endian (s.unread.take n)) (s.advance n)
      else .error .outOfRange s := by
  split
  next enough =>
    obtain ⟨bytes, small⟩ := wire_unwire s.endian (s.unread.take n)
    rw [List.length_take, Nat.min_eq_left enough] at bytes small
    have ahead : Ahead s (s.unread.take n ++ s.unread.drop n) := by
      rw [List.take_append_drop]
      exact ahead_unread wf
    have front := ahead.left
    rw [← bytes] at front
    exact readFixed_eq host some_byte small front
  next short =>
    rw [length_unread wf, Nat.not_le] at short
    rw [readFixed, bind_apply, read_short wf short]

/-- The loop takes the varint at the front of the unread bytes, or all of them. -/
theorem readVarintLoop_front {w groups fuel i result : Nat} {s : ByteArray} (wf : WellFormed s)
    (more : 0 < groups → i + 7 * (groups - 1) < w) (bits : w ≤ i + 7 * groups)
    (budget : groups ≤ fuel) :
    readVarintLoop w fuel i result s =
      match decodeVarint w groups i s.unread with
      | none => .error .outOfRange (s.advance s.unread.length)
      | some (value, size) => .ok (result ||| value) (s.advance size) := by
  induction groups generalizing fuel i result s with
  | zero =>
    have done : ¬i < w := by omega
    simp only [decodeVarint, Nat.or_zero, advance_zero wf]
    cases fuel with
    | zero => rfl
    | succ fuel => rw [readVarintLoop, if_neg done, pure_apply]
  | succ groups ih =>
    obtain ⟨fuel, rfl⟩ : ∃ left, fuel = left + 1 := ⟨fuel - 1, by omega⟩
    have inside : i < w := by
      have last := more (Nat.succ_pos groups)
      omega
    have ahead := ahead_unread wf
    cases left : s.unread with
    | nil =>
      have short : s.size - s.position < 1 := by
        rw [← length_unread wf, left]
        exact Nat.one_pos
      simp only [readVarintLoop, if_pos inside, bind_apply, readFuint8, read_short wf short,
        decodeVarint, List.length_nil, advance_zero wf]
    | cons b rest =>
      rw [left] at ahead
      have byte : readFuint8 s = .ok b (s.advance 1) :=
        readFuint8_eq (Ahead.left (show Ahead s ([b] ++ rest) from ahead))
      have behind : (s.advance 1).unread = rest := by
        rw [unread_advance, left, List.drop_one, List.tail_cons]
      have wf' : WellFormed (s.advance 1) := advance_wellFormed wf (by
        rw [left, List.length_cons]
        omega)
      simp only [readVarintLoop, if_pos inside, bind_apply, byte, decodeVarint]
      by_cases last : b < 0x80
      · simp only [if_pos last, pure_apply]
      -- the rest is read behind the byte, with its seven bits in the result
      · have again := @ih _ (i + 7) (result ||| ((b &&& 0x7F).toNat <<< i) % 2 ^ w) _ wf'
          (fun some_group => by
            have last_group := more (Nat.succ_pos groups)
            omega)
          (by omega) (show groups ≤ fuel by omega)
        rw [behind] at again
        simp only [if_neg last, again]
        cases decodeVarint w groups (i + 7) rest with
        | none =>
          simp only [Option.map_none, advance_advance, List.length_cons, Nat.add_comm 1]
        | some found =>
          simp only [Option.map_some, advance_advance, Nat.or_assoc, Nat.add_comm 1]

theorem decodeVarint_bounds {w groups i value size : Nat} {bytes : List UInt8}
    (found : decodeVarint w groups i bytes = some (value, size)) :
    value < 2 ^ w ∧ size ≤ bytes.length ∧ (0 < groups → 0 < size) := by
  induction groups generalizing i value size bytes with
  | zero =>
    cases found
    exact ⟨Nat.two_pow_pos w, Nat.zero_le _, fun none_left => none_left⟩
  | succ groups ih =>
    cases bytes with
    | nil => cases found
    | cons b rest =>
      have positive := Nat.two_pow_pos w
      simp only [decodeVarint] at found
      split at found
      next =>
        cases found
        exact ⟨Nat.mod_lt _ positive, by rw [List.length_cons]; omega, fun _ => Nat.one_pos⟩
      next =>
        obtain ⟨⟨value', size'⟩, behind, same⟩ := Option.map_eq_some_iff.mp found
        cases same
        obtain ⟨small, fits, -⟩ := ih behind
        exact ⟨Nat.or_lt_two_pow (Nat.mod_lt _ positive) small, by rw [List.length_cons]; omega,
          fun _ => Nat.succ_pos _⟩

/-! ### The first part -/

namespace Kind.Layout

/-- The read of the number, by its layout. -/
def take (host : Endian) : Kind.Layout → M Nat
  | fixed size => readFixed host size
  | varint bits _ => readVarintLoop bits bits 0 0

/-- There is something to read, and the groups of a varint just cover its bits. -/
def Sound : Kind.Layout → Prop
  | fixed size => 0 < size
  | varint bits groups => 0 < groups ∧ 7 * (groups - 1) < bits ∧ bits ≤ 7 * groups

instance : ∀ layout : Kind.Layout, Decidable layout.Sound
  | fixed size => inferInstanceAs (Decidable (0 < size))
  | varint bits groups =>
    inferInstanceAs (Decidable (0 < groups ∧ 7 * (groups - 1) < bits ∧ bits ≤ 7 * groups))

/-- How far a failing read gets: one of fixed width nowhere, a varint to the end. -/
def lost : Kind.Layout → Nat → Nat
  | fixed _, _ => 0
  | varint _ _, left => left

theorem take_front (host : Endian) {layout : Kind.Layout} (sound : layout.Sound) {s : ByteArray}
    (wf : WellFormed s) :
    layout.take host s =
      match layout.front s.endian s.unread with
      | none => .error .outOfRange (s.advance (layout.lost s.unread.length))
      | some (number, size) => .ok number (s.advance size) := by
  cases layout with
  | fixed size =>
    rw [take, readFixed_front host sound wf, front]
    by_cases enough : size ≤ s.unread.length
    · simp only [if_pos enough]
    · simp only [if_neg enough, lost, advance_zero wf]
  | varint bits groups =>
    obtain ⟨some_group, last, cover⟩ := sound
    have read := @readVarintLoop_front bits groups bits 0 0 s wf
      (fun _ => by omega) (by omega) (by omega)
    rw [take, read, front]
    cases decodeVarint bits groups 0 s.unread with
    | none => rfl
    | some found => simp only [Nat.zero_or]

theorem front_bounds {layout : Kind.Layout} (sound : layout.Sound) {order : Endian}
    {bytes : List UInt8} {number size : Nat}
    (found : layout.front order bytes = some (number, size)) :
    layout.first ≤ size ∧ 0 < size ∧ size ≤ bytes.length ∧
      number < match layout with
        | fixed size => 256 ^ size
        | varint bits _ => 2 ^ bits := by
  cases layout with
  | fixed width =>
    simp only [front] at found
    split at found
    next enough =>
      cases found
      have small := (wire_unwire order (bytes.take size)).2
      rw [List.length_take, Nat.min_eq_left enough] at small
      exact ⟨Nat.le_refl _, sound, enough, small⟩
    next => cases found
  | varint bits groups =>
    obtain ⟨small, fits, positive⟩ := decodeVarint_bounds found
    exact ⟨positive sound.1, positive sound.1, fits, small⟩

/-- Where nothing is found, the read got nowhere exactly when its first part failed. -/
theorem lost_eq_zero {layout : Kind.Layout} (sound : layout.Sound) {order : Endian}
    {bytes : List UInt8} (missing : layout.front order bytes = none) :
    layout.lost bytes.length = 0 ↔ bytes.length < layout.first := by
  cases layout with
  | fixed size =>
    simp only [front] at missing
    split at missing
    next => cases missing
    next short => exact iff_of_true rfl (Nat.lt_of_not_le short)
  | varint bits groups => exact Nat.lt_one_iff.symm

end Kind.Layout

theorem TypedRead.layout_sound (r : TypedRead) : r.layout.Sound := by
  cases r with
  | value kind => cases kind <;> decide
  | stringF16 | stringF32 | stringF64 | stringVint => decide

theorem read_of_readFixed_error {host : Endian} {n : Nat} {s s' : ByteArray} {fault : Fault}
    (failed : readFixed host n s = .error fault s') : read n s = .error fault s' := by
  rw [readFixed, bind_apply] at failed
  cases ran : read n s with
  | error _ _ =>
    rw [ran] at failed
    cases failed
    rfl
  | ok v mid =>
    rw [ran] at failed
    simp only [bind_apply, get_apply] at failed
    split at failed <;> cases failed

/-- A value is not read where its number is not. -/
theorem Kind.read_error (host : Endian) (kind : Kind) {s s' : ByteArray} {fault : Fault}
    (failed : kind.layout.take host s = .error fault s') : kind.read host s = .error fault s' := by
  cases kind with
  | fint8 | fuint8 =>
    have first := read_of_readFixed_error failed
    simp only [Kind.read, readFint8, readFuint8, bind_apply, first]
    rfl
  | _ =>
    simp only [Kind.layout, Kind.Layout.take] at failed
    simp only [Kind.read, readFint16, readFuint16, readFint32, readFuint32, readFint64, readFuint64,
      readFloat, readDouble, readInt32, readUint32, readInt64, readUint64, bind_apply, failed]
    rfl

/-- A string is read in two parts, its length and its bytes. -/
theorem readString_eq {readLength : M Nat} {s mid : ByteArray} {number : Nat}
    (length : readLength s = .ok number mid) : readString readLength s = read number mid := by
  rw [readString, bind_apply, length]

theorem readString_error {readLength : M Nat} {s s' : ByteArray} {fault : Fault}
    (failed : readLength s = .error fault s') : readString readLength s = .error fault s' := by
  rw [readString, bind_apply, failed]

/-- The member that reads the length of a string. -/
def TypedRead.readLength (host : Endian) : TypedRead → M Nat
  | value _ => return 0
  | stringF16 => do return (← readFuint16 host).toNat
  | stringF32 => do return (← readFuint32 host).toNat
  | stringF64 => do return (← readFuint64 host).toNat
  | stringVint => do return (← readUint64).toNat

/-- The length of a string is the number its layout gives. -/
theorem TypedRead.readLength_eq (host : Endian) {r : TypedRead} (string : ∀ kind, r ≠ value kind)
    {s : ByteArray} (wf : WellFormed s) : r.readLength host s = r.layout.take host s := by
  have front := r.layout.take_front host r.layout_sound wf
  cases found : r.layout.front s.endian s.unread with
  | none =>
    rw [found] at front
    cases r with
    | value kind => exact absurd rfl (string kind)
    | stringF16 | stringF32 | stringF64 | stringVint =>
      simp only [TypedRead.layout, Kind.Layout.take] at front ⊢
      simp only [readLength, readFuint16, readFuint32, readFuint64, readUint64, bind_apply, front]
  | some parts =>
    obtain ⟨number, size⟩ := parts
    rw [found] at front
    obtain ⟨-, -, -, small⟩ := Kind.Layout.front_bounds r.layout_sound found
    -- the number fits the type of the length field, so it is not cut
    cases r with
    | value kind => exact absurd rfl (string kind)
    | stringF16 =>
      have whole : (UInt16.ofNat number).toNat = number := UInt16.toNat_ofNat_of_lt' small
      simp only [TypedRead.layout, Kind.Layout.take] at front ⊢
      simp only [readLength, readFuint16, bind_apply, front, pure_apply, whole]
    | stringF32 =>
      have whole : (UInt32.ofNat number).toNat = number := UInt32.toNat_ofNat_of_lt' small
      simp only [TypedRead.layout, Kind.Layout.take] at front ⊢
      simp only [readLength, readFuint32, bind_apply, front, pure_apply, whole]
    | stringF64 =>
      have whole : (UInt64.ofNat number).toNat = number := UInt64.toNat_ofNat_of_lt' small
      simp only [TypedRead.layout, Kind.Layout.take] at front ⊢
      simp only [readLength, readFuint64, bind_apply, front, pure_apply, whole]
    | stringVint =>
      have whole : (UInt64.ofNat number).toNat = number := UInt64.toNat_ofNat_of_lt' small
      simp only [TypedRead.layout, Kind.Layout.take] at front ⊢
      simp only [readLength, readUint64, bind_apply, front, pure_apply, whole]

/-! ### The outcome -/

/-- A string whose length is not there, or whose bytes are not. -/
theorem readString_short (host : Endian) {r : TypedRead} (string : ∀ kind, r ≠ .value kind)
    {s : ByteArray} (wf : WellFormed s) :
    (r.layout.front s.endian s.unread = none →
      readString (r.readLength host) s =
        .error .outOfRange (s.advance (r.layout.lost s.unread.length))) ∧
      ∀ number size, r.layout.front s.endian s.unread = some (number, size) →
        s.unread.length < size + number →
        readString (r.readLength host) s = .error .outOfRange (s.advance size) := by
  have front := r.layout.take_front host r.layout_sound wf
  rw [← TypedRead.readLength_eq host string wf] at front
  constructor
  · intro missing
    rw [missing] at front
    exact readString_error front
  · intro number size found short
    rw [found] at front
    obtain ⟨-, -, fits, -⟩ := Kind.Layout.front_bounds r.layout_sound found
    rw [readString_eq front]
    apply read_short (advance_wellFormed wf fits)
    rw [length_unread wf] at short fits
    rw [advance_size, advance_position]
    omega

/-- With too few bytes every typed read throws, having taken what its finished parts took. -/
theorem read_truncated (host : Endian) (r : TypedRead) {s : ByteArray} (wf : WellFormed s)
    (missing : ¬s.Holds r) :
    ∃ taken, r.read host s = .error .outOfRange (s.advance taken) ∧
      (taken = 0 ↔ s.unread.length < r.layout.first) := by
  cases found : r.layout.front s.endian s.unread with
  | none =>
    refine ⟨r.layout.lost s.unread.length, ?_, Kind.Layout.lost_eq_zero r.layout_sound found⟩
    cases r with
    | value kind =>
      have front := kind.layout.take_front host (TypedRead.value kind).layout_sound wf
      simp only [TypedRead.layout] at found
      rw [found] at front
      exact kind.read_error host front
    | stringF16 | stringF32 | stringF64 | stringVint =>
      exact (readString_short host (by simp) wf).1 found
  | some parts =>
    obtain ⟨number, size⟩ := parts
    obtain ⟨first_le, positive, fits, -⟩ := Kind.Layout.front_bounds r.layout_sound found
    refine ⟨size, ?_, by omega⟩
    cases r with
    | value kind =>
      -- a value is its number, and that is there
      refine absurd ⟨size, ?_, fits⟩ missing
      rw [TypedRead.extent, found]
      rfl
    | stringF16 | stringF32 | stringF64 | stringVint =>
      -- the length is there, so the bytes behind it are not
      refine (readString_short host (by simp) wf).2 number size found (Nat.lt_of_not_le ?_)
      intro enough
      refine missing ⟨size + number, ?_, enough⟩
      rw [TypedRead.extent, found]
      rfl

/-- A typed read that finds too few bytes throws, and leaves the array as it was exactly when
already its first read of the array finds too few. -/
theorem atomic_iff {s : ByteArray} (wf : WellFormed s) (host : Endian) (r : TypedRead) :
    s.Atomic host r ↔ s.Holds r ∨ s.size - s.position < r.layout.first := by
  rw [← length_unread wf, Atomic]
  constructor
  · intro atomic
    by_contra neither
    obtain ⟨missing, part⟩ := not_or.mp neither
    -- an array that is as before has lost nothing to the call
    obtain ⟨taken, threw, first⟩ := read_truncated host r wf missing
    rw [atomic missing, EStateM.Result.error.injEq] at threw
    exact part (first.mp ((advance_eq_self wf taken).mp threw.2.symm))
  · rintro (holds | short) missing
    · exact absurd holds missing
    · obtain ⟨taken, threw, first⟩ := read_truncated host r wf missing
      rw [threw, first.mpr short, advance_zero wf]

/-- A read of fixed width is one read of the array. -/
theorem atomic_fixed {s : ByteArray} (wf : WellFormed s) (host : Endian) {kind : Kind} {size : Nat}
    (fixed : kind.layout = .fixed size) : s.Atomic host (.value kind) := by
  intro missing
  obtain ⟨taken, threw, first⟩ := read_truncated host _ wf missing
  have short : s.unread.length < (TypedRead.value kind).layout.first := by
    rw [TypedRead.layout, fixed, Kind.Layout.first]
    refine Nat.lt_of_not_le fun enough => missing ⟨size, ?_, enough⟩
    rw [TypedRead.extent, TypedRead.layout, fixed, Kind.Layout.front, if_pos enough]
    rfl
  rw [threw, first.mpr short, advance_zero wf]

/-- One byte where two of a length are needed. -/
theorem atomic_iff_one_byte :
    (run (create (fun _ _ => 0) 4) [.write [5], .setPosition 0]).Atomic .little .stringF16 := by
  have wf : WellFormed (run (create (fun _ _ => 0) 4) [.write [5], .setPosition 0]) :=
    (run_wellFormed (create_wellFormed _ (show 0 < 4 by decide)) [.write [5], .setPosition 0]
      (by simp [Op.Allowed])).1
  exact (atomic_iff wf .little .stringF16).mpr (.inr (by decide))

/-- The length of a string is there and its bytes are not; a varint has no last byte. -/
theorem not_atomic_composite :
    ¬(run (create (fun _ _ => 0) 4) [.write [0, 5, 1], .setPosition 0]).Atomic .little
        .stringF16 ∧
      ¬(run (create (fun _ _ => 0) 4) [.write [0x80], .setPosition 0]).Atomic .little
        (.value .uint32) := by
  constructor
  · intro atomic
    have position := congrArg (fun result => (after result).position) (atomic ?_)
    · revert position
      decide
    · rintro ⟨n, found, fits⟩
      cases found
      revert fits
      decide
  · intro atomic
    have position := congrArg (fun result => (after result).position) (atomic ?_)
    · revert position
      decide
    · rintro ⟨n, found, fits⟩
      cases found

end Dwframe.ByteArray
