import Dwframe.ByteArray.Codec
import Dwframe.ByteArray.Cursor

/-!
# Values come back as they were written

`wire` and `varint` are the bytes a writer leaves, whatever the machine's own byte order. A reader
that finds the bytes of a value ahead of the cursor returns the value and advances past them.
-/
namespace Dwframe.ByteArray

open Lib

/-! ### Fixed width -/

/-- The bytes of an `n`-byte value in the order of the stream. -/
def wire (order : Endian) (n value : Nat) : List UInt8 :=
  match order with
  | .little => toBytes n value
  | .big => (toBytes n value).reverse

@[simp] theorem length_wire (order : Endian) (n value : Nat) : (wire order n value).length = n := by
  cases order <;> simp [wire]

theorem writeFixed_eq (host : Endian) (n value : Nat) (s : ByteArray) :
    writeFixed host n value s = write (wire s.endian n value) s := by
  cases host <;> cases order : s.endian <;>
    simp [writeFixed, order, native, wire, toBytes_byteswap]

/-- What a reader makes of the bytes of a value. -/
theorem ofNative_wire (host order : Endian) {n value : Nat} (fits : value < 256 ^ n) :
    (if order = host then ofNative host (wire order n value)
      else byteswap n (ofNative host (wire order n value))) = value := by
  have swapped := byteswap_byteswap fits
  cases host <;> cases order <;>
    simp_all [ofNative, wire, ofBytes_toBytes, byteswap]

theorem readFixed_eq (host : Endian) {n value : Nat} {s : ByteArray} (some_byte : 0 < n)
    (fits : value < 256 ^ n) (ahead : Ahead s (wire s.endian n value)) :
    readFixed host n s = .ok value (s.advance n) := by
  have took := ahead.read (List.ne_nil_of_length_pos (by simpa using some_byte))
  have back := ofNative_wire host s.endian fits
  rw [length_wire] at took
  simp only [readFixed, bind_apply, took, get_apply]
  -- the byte order is looked up after the read, which leaves it as it was
  by_cases same : (s.advance n).endian = host
  · rw [if_pos (show s.endian = host from same)] at back
    rw [if_pos same, pure_apply, back]
  · rw [if_neg (show ¬s.endian = host from same)] at back
    rw [if_neg same, pure_apply, back]

/-- A reader that takes the number to its own type. -/
theorem readFixed_as {α : Type} (host : Endian) {n raw : Nat} (decode : Nat → α) {value : α}
    {s : ByteArray} (back : decode raw = value) (some_byte : 0 < n) (fits : raw < 256 ^ n)
    (ahead : Ahead s (wire s.endian n raw)) :
    (do return decode (← readFixed host n) : M α) s =
      .ok value (s.advance (wire s.endian n raw).length) := by
  simp only [bind_apply, readFixed_eq host some_byte fits ahead, pure_apply, back, length_wire]

/-- The byte readers, the signed one and the unsigned one. -/
theorem readByte_as {α : Type} (decode : UInt8 → α) {b : UInt8} {value : α} {s : ByteArray}
    (back : decode b = value) (ahead : Ahead s [b]) :
    (do return decode ((← read 1).headD 0) : M α) s = .ok value (s.advance 1) := by
  have took : read 1 s = .ok [b] (s.advance 1) := ahead.read (List.cons_ne_nil _ _)
  simp only [bind_apply, took, pure_apply, List.headD_cons, back]

/-! ### Variable length -/

theorem low_group (value : Nat) :
    UInt8.ofNat ((value &&& 0x7F) ||| 0x80) = UInt8.ofNat (value % 128 + 128) := by
  have masked : value &&& 0x7F = value % 128 := Nat.and_two_pow_sub_one_eq_mod value 7
  have small : value % 128 < 2 ^ 7 := Nat.mod_lt _ (by decide)
  have marked := Nat.two_pow_add_eq_or_of_lt small 1
  rw [masked, Nat.or_comm, Nat.add_comm]
  exact congrArg UInt8.ofNat marked.symm

/-- The groups of seven bits of a value, lowest first; `groups` bounds their number. -/
def varint : Nat → Nat → List UInt8
  | 0, _ => []
  | groups + 1, value =>
    if value ≥ 128 then UInt8.ofNat (value % 128 + 128) :: varint groups (value / 128)
    else [UInt8.ofNat value]

theorem varint_large {groups value : Nat} (large : 128 ≤ value) :
    varint (groups + 1) value =
      UInt8.ofNat (value % 128 + 128) :: varint groups (value / 128) := if_pos large

theorem varint_small {groups value : Nat} (small : value < 128) :
    varint (groups + 1) value = [UInt8.ofNat value] := if_neg (Nat.not_le.mpr small)

theorem next_groups {room value : Nat} (fits : value < 128 ^ (room + 2)) :
    value / 128 < 128 ^ (room + 1) := by
  rw [Nat.div_lt_iff_lt_mul (by decide), ← Nat.pow_succ]
  exact fits

/-- A value of `room + 1` groups fits in a temporary of as many bytes. -/
theorem varintLoop_eq {room value : Nat} (fits : value < 128 ^ (room + 1)) :
    varintLoop (room + 1) value = .ok (varint (room + 1) value) ∧
      (varint (room + 1) value).length ≤ room + 1 := by
  induction room generalizing value with
  | zero =>
    have small : value < 128 := by omega
    simp [varintLoop, varint_small small, Nat.not_le.mpr small]
  | succ room ih =>
    rcases Nat.lt_or_ge value 128 with small | large
    · simp [varintLoop, varint_small small, Nat.not_le.mpr small]
    · obtain ⟨ran, length⟩ := ih (next_groups fits)
      have shifted : value >>> 7 = value / 128 := Nat.shiftRight_eq_div_pow value 7
      rw [varint_large large]
      constructor
      · rw [varintLoop, if_pos large, shifted, ran, low_group]
        rfl
      · rw [List.length_cons]
        omega

theorem readFuint8_eq {s : ByteArray} {b : UInt8} (ahead : Ahead s [b]) :
    readFuint8 s = .ok b (s.advance 1) := readByte_as id rfl ahead

/-- Adding the next group at bit `i`. -/
private theorem or_group {result group i w : Nat} (low : result < 2 ^ i)
    (fits : group * 2 ^ i < 2 ^ w) :
    result ||| (group <<< i) % 2 ^ w = result + group * 2 ^ i := by
  rw [Nat.shiftLeft_eq, Nat.mod_eq_of_lt fits, Nat.or_comm, Nat.mul_comm,
    ← Nat.two_pow_add_eq_or_of_lt low]
  omega

/-- The reading loop at the last group. -/
private theorem readVarintLoop_last {w value fuel i result : Nat} {s : ByteArray}
    (small : value < 128) (inside : i < w) (bounded : value * 2 ^ i < 2 ^ w)
    (low : result < 2 ^ i) (ahead : Ahead s [UInt8.ofNat value]) :
    readVarintLoop w (fuel + 1) i result s = .ok (result + value * 2 ^ i) (s.advance 1) := by
  have byte : (UInt8.ofNat value).toNat = value := by
    rw [UInt8.toNat_ofNat']
    omega
  have last : UInt8.ofNat value < 0x80 := by
    rw [UInt8.lt_iff_toNat_lt, byte]
    exact small
  simp only [readVarintLoop, if_pos inside, bind_apply, readFuint8_eq ahead, if_pos last,
    pure_apply, byte, or_group low bounded]

/-- The reading loop at a group that others follow. -/
private theorem readVarintLoop_more {w group fuel i result : Nat} {s : ByteArray}
    (small : group < 128) (inside : i < w) (bounded : group * 2 ^ i < 2 ^ w)
    (low : result < 2 ^ i) (ahead : Ahead s [UInt8.ofNat (group + 128)]) :
    readVarintLoop w (fuel + 1) i result s =
      readVarintLoop w fuel (i + 7) (result + group * 2 ^ i) (s.advance 1) := by
  have byte : (UInt8.ofNat (group + 128)).toNat = group + 128 := by
    rw [UInt8.toNat_ofNat']
    omega
  have more : ¬UInt8.ofNat (group + 128) < 0x80 := by
    rw [UInt8.lt_iff_toNat_lt, byte]
    exact Nat.not_lt.mpr (Nat.le_add_left _ _)
  have masked : (UInt8.ofNat (group + 128) &&& 0x7F).toNat = group := by
    have low_bits := Nat.and_two_pow_sub_one_eq_mod (group + 128) 7
    rw [UInt8.toNat_and, byte]
    exact low_bits.trans (by omega)
  rw [readVarintLoop, if_pos inside, bind_apply, readFuint8_eq ahead]
  simp only [if_neg more, masked, or_group low bounded]

/-- The reading loop from bit `i` on, with the value of the lower bits in `result`. -/
theorem readVarintLoop_eq {w room value fuel i result : Nat} {s : ByteArray}
    (fits : value < 128 ^ (room + 1)) (inside : i < w) (bounded : value * 2 ^ i < 2 ^ w)
    (low : result < 2 ^ i) (budget : w ≤ i + fuel) (ahead : Ahead s (varint (room + 1) value)) :
    readVarintLoop w fuel i result s =
      .ok (result + value * 2 ^ i) (s.advance (varint (room + 1) value).length) := by
  obtain ⟨fuel, rfl⟩ : ∃ more, fuel = more + 1 := ⟨fuel - 1, by omega⟩
  induction room generalizing value fuel i result s with
  | zero =>
    have small : value < 128 := by omega
    rw [varint_small small] at ahead ⊢
    exact readVarintLoop_last small inside bounded low ahead
  | succ room ih =>
    rcases Nat.lt_or_ge value 128 with small | large
    · rw [varint_small small] at ahead ⊢
      exact readVarintLoop_last small inside bounded low ahead
    · rw [varint_large large] at ahead ⊢
      have parts : Ahead s ([UInt8.ofNat (value % 128 + 128)] ++ varint (room + 1) (value / 128)) :=
        ahead
      -- the group taken off and the value that is left, both at their bits
      have scale : 2 ^ (i + 7) = 128 * 2 ^ i := by rw [Nat.pow_add, Nat.mul_comm]
      have whole : value * 2 ^ i = value % 128 * 2 ^ i + value / 128 * 2 ^ (i + 7) := by
        rw [scale, ← Nat.mul_assoc, ← Nat.add_mul, Nat.mod_add_div']
      have more_bits : 2 ^ (i + 7) < 2 ^ w := by
        have least := Nat.mul_le_mul_right (2 ^ i) large
        omega
      have inside' : i + 7 < w := (Nat.pow_lt_pow_iff_right (by decide)).mp more_bits
      have low' : result + value % 128 * 2 ^ i < 2 ^ (i + 7) := by
        have most := Nat.mul_le_mul_right (2 ^ i) (show value % 128 ≤ 127 by omega)
        omega
      obtain ⟨fuel, rfl⟩ : ∃ more, fuel = more + 1 := ⟨fuel - 1, by omega⟩
      have rest := ih (next_groups fits) inside' (by omega) low' parts.right fuel (by omega)
      rw [List.length_singleton] at rest
      rw [readVarintLoop_more (Nat.mod_lt _ (by decide)) inside (by omega) low parts.left, rest,
        advance_advance, whole, List.length_cons, Nat.add_assoc, Nat.add_comm 1]

/-- The reading loop as the readers call it. -/
theorem readVarintLoop_whole {w room value : Nat} {s : ByteArray} (fits : value < 128 ^ (room + 1))
    (bound : value < 2 ^ w) (some_bit : 0 < w) (ahead : Ahead s (varint (room + 1) value)) :
    readVarintLoop w w 0 0 s = .ok value (s.advance (varint (room + 1) value).length) := by
  have took : readVarintLoop w w 0 0 s =
      .ok (0 + value * 2 ^ 0) (s.advance (varint (room + 1) value).length) :=
    readVarintLoop_eq fits some_bit (by simpa using bound) (by decide) (by omega) ahead
  rwa [Nat.zero_add, Nat.pow_zero, Nat.mul_one] at took

/-! ### Zigzag -/

private theorem and_one {w : Nat} (v : BitVec w) : v &&& 1 = BitVec.ofNat w (v.toNat % 2) := by
  apply BitVec.eq_of_toNat_eq
  have one : (1 : BitVec w).toNat = 1 % 2 ^ w := rfl
  rcases Nat.eq_zero_or_pos w with rfl | positive
  · exact congrArg BitVec.toNat (Subsingleton.elim (v &&& 1) _)
  have one_lt : 1 < 2 ^ w := Nat.one_lt_two_pow (Nat.ne_of_gt positive)
  rw [BitVec.toNat_and, one, Nat.mod_eq_of_lt one_lt, Nat.and_one_is_mod, BitVec.toNat_ofNat]
  have small := Nat.mod_lt v.toNat (by decide : 2 > 0)
  exact (Nat.mod_eq_of_lt (Nat.lt_of_lt_of_le small one_lt)).symm

private theorem toNat_double {w : Nat} (v : BitVec w) : (v * 2).toNat = 2 * v.toNat % 2 ^ w := by
  have two : (2 : BitVec w).toNat = 2 % 2 ^ w := rfl
  rw [BitVec.toNat_mul, two, Nat.mul_mod_mod, Nat.mul_comm]

theorem decodeZigzag_even {w : Nat} {v : BitVec w} (even : v.toNat % 2 = 0) :
    (decodeZigzag v).toNat = v.toNat / 2 := by
  rw [decodeZigzag, and_one, even]
  simp [Nat.shiftRight_eq_div_pow]

theorem decodeZigzag_odd {w : Nat} {v : BitVec w} (odd : v.toNat % 2 = 1) :
    (decodeZigzag v).toNat = 2 ^ w - 1 - v.toNat / 2 := by
  rw [decodeZigzag, and_one, odd, BitVec.neg_one_eq_allOnes, BitVec.xor_allOnes]
  simp [BitVec.toNat_not, Nat.shiftRight_eq_div_pow]

theorem toNat_encodeZigzag {w : Nat} (v : BitVec w) :
    (encodeZigzag v).toNat =
      if v.msb then 2 * (2 ^ w - v.toNat) - 1 else 2 * v.toNat := by
  have bound := v.isLt
  cases sign : v.msb with
  | true =>
    have high : 2 * v.toNat ≥ 2 ^ w := BitVec.msb_eq_true_iff_two_mul_ge.mp sign
    have negative : v.slt 0 = true := BitVec.slt_zero_iff_msb_cond.mpr sign
    have one : (1 : BitVec w).toNat = 1 % 2 ^ w := rfl
    have one_lt : 1 < 2 ^ w := by
      rcases Nat.eq_zero_or_pos w with rfl | positive
      · omega
      · exact Nat.one_lt_two_pow (Nat.ne_of_gt positive)
    rw [encodeZigzag, if_pos negative, BitVec.toNat_sub, toNat_double, BitVec.toNat_neg, one,
      Nat.mod_eq_of_lt one_lt, Nat.mod_eq_of_lt (by omega : 2 ^ w - v.toNat < 2 ^ w), if_pos rfl]
    -- doubling wraps for the smallest value only
    rcases Nat.lt_or_ge (2 * (2 ^ w - v.toNat)) (2 ^ w) with small | most
    · have again : 2 ^ w - 1 + 2 * (2 ^ w - v.toNat) = 2 * (2 ^ w - v.toNat) - 1 + 2 ^ w := by omega
      rw [Nat.mod_eq_of_lt small, again, Nat.add_mod_right, Nat.mod_eq_of_lt (by omega)]
    · have wraps : 2 * (2 ^ w - v.toNat) = 2 ^ w := by omega
      rw [wraps, Nat.mod_self, Nat.add_zero, Nat.mod_eq_of_lt (by omega)]
  | false =>
    have low : 2 * v.toNat < 2 ^ w := BitVec.msb_eq_false_iff_two_mul_lt.mp sign
    have positive : ¬v.slt 0 = true := by
      intro negative
      rw [BitVec.slt_zero_iff_msb_cond.mp negative] at sign
      cases sign
    rw [encodeZigzag, if_neg positive, toNat_double, Nat.mod_eq_of_lt low]
    rfl

/-- The lowest bit of the code is the sign. -/
theorem decodeZigzag_encodeZigzag {w : Nat} (v : BitVec w) :
    decodeZigzag (encodeZigzag v) = v := by
  apply BitVec.eq_of_toNat_eq
  have bound := v.isLt
  have code := toNat_encodeZigzag v
  cases sign : v.msb with
  | true =>
    rw [if_pos sign] at code
    rw [decodeZigzag_odd (by omega), code]
    omega
  | false =>
    rw [if_neg (by simp [sign])] at code
    rw [decodeZigzag_even (by omega), code]
    omega

/-! ### One value -/

namespace Kind

/-- The bytes a value takes in the stream. -/
def encode (order : Endian) : (kind : Kind) → kind.Carrier → List UInt8
  | fint8, value => [Int8.toUInt8 value]
  | fuint8, value => [value]
  | fint16, value => wire order 2 (Int16.toUInt16 value).toNat
  | fuint16, value => wire order 2 (UInt16.toNat value)
  | fint32, value => wire order 4 (Int32.toUInt32 value).toNat
  | fuint32, value => wire order 4 (UInt32.toNat value)
  | fint64, value => wire order 8 (Int64.toUInt64 value).toNat
  | fuint64, value => wire order 8 (UInt64.toNat value)
  | int32, value => varint 5 (encodeZigzag32 value).toNat
  | uint32, value => varint 5 (UInt32.toNat value)
  | int64, value => varint 10 (encodeZigzag64 value).toNat
  | uint64, value => varint 10 (UInt64.toNat value)
  | float, value => wire order 4 (UInt32.toNat value)
  | double, value => wire order 8 (UInt64.toNat value)

end Kind

/-- The loop never leaves a temporary of five bytes. -/
theorem varintLoop_uint32 (value : UInt32) :
    varintLoop 5 value.toNat = .ok (varint 5 value.toNat) ∧
      (varint 5 value.toNat).length ≤ 5 :=
  varintLoop_eq (Nat.lt_of_lt_of_le value.toNat_lt (by decide))

theorem varintLoop_uint64 (value : UInt64) :
    varintLoop 10 value.toNat = .ok (varint 10 value.toNat) ∧
      (varint 10 value.toNat).length ≤ 10 :=
  varintLoop_eq (Nat.lt_of_lt_of_le value.toNat_lt (by decide))

theorem writeUint32_eq (value : UInt32) : writeUint32 value = write (varint 5 value.toNat) := by
  funext s
  rw [writeUint32, writeVarint, (varintLoop_uint32 value).1]

theorem writeUint64_eq (value : UInt64) : writeUint64 value = write (varint 10 value.toNat) := by
  funext s
  rw [writeUint64, writeVarint, (varintLoop_uint64 value).1]

theorem readUint32_eq {value : UInt32} {s : ByteArray} (ahead : Ahead s (varint 5 value.toNat)) :
    readUint32 s = .ok value (s.advance (varint 5 value.toNat).length) := by
  have bound := value.toNat_lt
  have took := readVarintLoop_whole (Nat.lt_of_lt_of_le bound (by decide)) bound (by decide) ahead
  simp only [readUint32, bind_apply, took, pure_apply, UInt32.ofNat_toNat]

theorem readUint64_eq {value : UInt64} {s : ByteArray} (ahead : Ahead s (varint 10 value.toNat)) :
    readUint64 s = .ok value (s.advance (varint 10 value.toNat).length) := by
  have bound := value.toNat_lt
  have took := readVarintLoop_whole (Nat.lt_of_lt_of_le bound (by decide)) bound (by decide) ahead
  simp only [readUint64, bind_apply, took, pure_apply, UInt64.ofNat_toNat]

theorem readInt32_eq {value : Int32} {s : ByteArray}
    (ahead : Ahead s (varint 5 (encodeZigzag32 value).toNat)) :
    readInt32 s = .ok value (s.advance (varint 5 (encodeZigzag32 value).toNat).length) := by
  have back : decodeZigzag32 (encodeZigzag32 value) = value := by
    simp only [decodeZigzag32, encodeZigzag32, decodeZigzag_encodeZigzag]
    rfl
  simp only [readInt32, bind_apply, readUint32_eq ahead, pure_apply, back]

theorem readInt64_eq {value : Int64} {s : ByteArray}
    (ahead : Ahead s (varint 10 (encodeZigzag64 value).toNat)) :
    readInt64 s = .ok value (s.advance (varint 10 (encodeZigzag64 value).toNat).length) := by
  have back : decodeZigzag64 (encodeZigzag64 value) = value := by
    simp only [decodeZigzag64, encodeZigzag64, decodeZigzag_encodeZigzag]
    rfl
  simp only [readInt64, bind_apply, readUint64_eq ahead, pure_apply, back]

namespace Kind

/-- Every writer is one `write` of the bytes of its value. -/
theorem write_eq (host : Endian) (kind : Kind) (value : kind.Carrier) (s : ByteArray) :
    kind.write host value s = ByteArray.write (kind.encode s.endian value) s := by
  cases kind with
  | fint8 | fuint8 => rfl
  | fint16 | fuint16 | fint32 | fuint32 | fint64 | fuint64 | float | double =>
    exact writeFixed_eq host _ _ s
  | int32 | uint32 => exact congrFun (writeUint32_eq _) s
  | int64 | uint64 => exact congrFun (writeUint64_eq _) s

theorem write_writes (host : Endian) (kind : Kind) (value : kind.Carrier) :
    Writes (kind.write host value) (kind.encode · value) := by
  intro s wf
  rw [write_eq]
  exact Writes.write _ s wf

/-- Every reader takes the bytes of a value back to the value. -/
theorem read_reads (host : Endian) (kind : Kind) (value : kind.Carrier) :
    Reads (kind.read host) (kind.encode · value) value := by
  intro s ahead
  cases kind with
  | fint8 => exact readByte_as UInt8.toInt8 rfl ahead
  | fuint8 => exact readFuint8_eq ahead
  | fint16 =>
    exact readFixed_as host (fun raw => (UInt16.ofNat raw).toInt16)
      (congrArg UInt16.toInt16 UInt16.ofNat_toNat) (by decide) (UInt16.toNat_lt _) ahead
  | fuint16 =>
    exact readFixed_as host UInt16.ofNat UInt16.ofNat_toNat (by decide) (UInt16.toNat_lt _) ahead
  | fint32 =>
    exact readFixed_as host (fun raw => (UInt32.ofNat raw).toInt32)
      (congrArg UInt32.toInt32 UInt32.ofNat_toNat) (by decide) (UInt32.toNat_lt _) ahead
  | fuint32 | float =>
    exact readFixed_as host UInt32.ofNat UInt32.ofNat_toNat (by decide) (UInt32.toNat_lt _) ahead
  | fint64 =>
    exact readFixed_as host (fun raw => (UInt64.ofNat raw).toInt64)
      (congrArg UInt64.toInt64 UInt64.ofNat_toNat) (by decide) (UInt64.toNat_lt _) ahead
  | fuint64 | double =>
    exact readFixed_as host UInt64.ofNat UInt64.ofNat_toNat (by decide) (UInt64.toNat_lt _) ahead
  | int32 => exact readInt32_eq ahead
  | uint32 => exact readUint32_eq ahead
  | int64 => exact readInt64_eq ahead
  | uint64 => exact readUint64_eq ahead

end Kind

/-! ### All values -/

/-- The bytes of the values, one after the other. -/
def encodeAll (order : Endian) (values : List Value) : List UInt8 :=
  values.flatMap fun value => value.1.encode order value.2

theorem writeAll_writes (host : Endian) (values : List Value) :
    Writes (writeAll host values) fun order => encodeAll order values := by
  induction values with
  | nil => exact .pure
  | cons value rest ih => exact (value.1.write_writes host value.2).bind ih

theorem readAll_reads (host : Endian) (values : List Value) :
    Reads (readAll host (values.map Sigma.fst)) (fun order => encodeAll order values) values := by
  induction values with
  | nil => exact .pure []
  | cons value rest ih => exact (value.1.read_reads host value.2).bind (ih.map (value :: ·))

/-- Values written at the end of an array are read back, nothing is left over, and the encoders of
the variable-length types stay inside their temporaries. -/
theorem values_round_trip {s : ByteArray} (reachable : Reachable s)
    (at_end : s.getPosition = s.getSize) (host : Endian) (values : List Value) :
    (∃ written back final, writeAll host values s = .ok () written ∧
      setPosition s.getPosition written = .ok () back ∧
      readAll host (values.map Sigma.fst) back = .ok values final ∧ final.getReadSize = 0) ∧
    (∀ value : UInt32, ∃ tmp, varintLoop 5 value.toNat = .ok tmp ∧ tmp.length ≤ 5) ∧
    ∀ value : UInt64, ∃ tmp, varintLoop 10 value.toNat = .ok tmp ∧ tmp.length ≤ 10 := by
  refine ⟨?_, fun value => ⟨_, (varintLoop_uint32 value).1, (varintLoop_uint32 value).2⟩,
    fun value => ⟨_, (varintLoop_uint64 value).1, (varintLoop_uint64 value).2⟩⟩
  have wf := reachable.wellFormed
  obtain ⟨written, ran, wrote⟩ := writeAll_writes host values s wf
  obtain ⟨back, moved, ahead, position, size, endian, -⟩ := wrote.ahead wf
  rw [← endian] at ahead
  refine ⟨written, back, _, ran, moved, readAll_reads host values back ahead, ?_⟩
  have all : s.size = s.position := at_end.symm
  rw [getReadSize, advance_size, advance_position, size, wrote.size, position, endian, all,
    Nat.max_eq_right (Nat.le_add_right _ _), sizeSub_of_le (Nat.le_refl _), Nat.sub_self]

/-- Three values of different widths, the smallest `int32_t` among them, in blocks of two bytes. -/
theorem values_round_trip_smallest_int32 :
    ∃ written back final,
      writeAll .little [⟨.fuint16, (1 : UInt16)⟩, ⟨.int32, (-2147483648 : Int32)⟩,
        ⟨.uint64, (300 : UInt64)⟩] (create (fun _ _ => 0) 2) = .ok () written ∧
      setPosition 0 written = .ok () back ∧
      readAll .little [.fuint16, .int32, .uint64] back =
        .ok [⟨.fuint16, (1 : UInt16)⟩, ⟨.int32, (-2147483648 : Int32)⟩,
          ⟨.uint64, (300 : UInt64)⟩] final ∧ final.getReadSize = 0 :=
  (values_round_trip (.create _ (by decide)) rfl _ _).1

end Dwframe.ByteArray
