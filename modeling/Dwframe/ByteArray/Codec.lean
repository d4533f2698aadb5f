import Dwframe.ByteArray.Buffers
import Dwframe.Lib.Bytes

/-!
# Typed reads and writes

The typed members of `ByteArray` go through `write` and `read`. `host` is `dwframe_byte_order`,
the order in which the machine keeps the bytes of a value; a fixed-width value is swapped when
`m_endian` is the other one. `float` and `double` values are their bit patterns, which `memcpy`
carries to and from an integer of the same size.
-/
namespace Dwframe.ByteArray

open Lib

section Fixed

variable (host : Endian)

/-- The bytes of an `n`-byte value in memory. -/
def native (n value : Nat) : List UInt8 :=
  match host with
  | .little => toBytes n value
  | .big => (toBytes n value).reverse

def ofNative (bytes : List UInt8) : Nat :=
  match host with
  | .little => ofBytes bytes
  | .big => ofBytes bytes.reverse

/-- `if(m_endian != dwframe_byte_order) value = byteswap(value); write(&value, sizeof(value));` -/
def writeFixed (n value : Nat) : M Unit := fun s =>
  let value := if s.endian ≠ host then byteswap n value else value
  write (native host n value) s

/-- The macro `XX` of the fixed-width readers. -/
def readFixed (n : Nat) : M Nat := do
  let v ← read n
  let s ← get
  if s.endian = host then return ofNative host v
  else return byteswap n (ofNative host v)

def writeFint8 (value : Int8) : M Unit := write [value.toUInt8]

def writeFuint8 (value : UInt8) : M Unit := write [value]

def writeFint16 (value : Int16) : M Unit := writeFixed host 2 value.toUInt16.toNat

def writeFuint16 (value : UInt16) : M Unit := writeFixed host 2 value.toNat

def writeFint32 (value : Int32) : M Unit := writeFixed host 4 value.toUInt32.toNat

def writeFuint32 (value : UInt32) : M Unit := writeFixed host 4 value.toNat

def writeFint64 (value : Int64) : M Unit := writeFixed host 8 value.toUInt64.toNat

def writeFuint64 (value : UInt64) : M Unit := writeFixed host 8 value.toNat

def readFuint8 : M UInt8 := do
  let v ← read 1
  return v.headD 0

def readFint8 : M Int8 := do
  let v ← read 1
  return (v.headD 0).toInt8

def readFint16 : M Int16 := do return (UInt16.ofNat (← readFixed host 2)).toInt16

def readFuint16 : M UInt16 := do return UInt16.ofNat (← readFixed host 2)

def readFint32 : M Int32 := do return (UInt32.ofNat (← readFixed host 4)).toInt32

def readFuint32 : M UInt32 := do return UInt32.ofNat (← readFixed host 4)

def readFint64 : M Int64 := do return (UInt64.ofNat (← readFixed host 8)).toInt64

def readFuint64 : M UInt64 := do return UInt64.ofNat (← readFixed host 8)

/-- `writeFloat` of the value with these bits. -/
def writeFloat (bits : UInt32) : M Unit := writeFuint32 host bits

def writeDouble (bits : UInt64) : M Unit := writeFuint64 host bits

def readFloat : M UInt32 := readFuint32 host

def readDouble : M UInt64 := readFuint64 host

end Fixed

/-! ### Variable length -/

/-- `EncodeZigzag32` and `EncodeZigzag64`; negation and doubling wrap. -/
def encodeZigzag {w : Nat} (v : BitVec w) : BitVec w :=
  if v.slt 0 then -v * 2 - 1 else v * 2

/-- `DecodeZigzag32` and `DecodeZigzag64`. -/
def decodeZigzag {w : Nat} (v : BitVec w) : BitVec w := (v >>> 1) ^^^ -(v &&& 1)

def encodeZigzag32 (v : Int32) : UInt32 := ⟨encodeZigzag v.toBitVec⟩

def encodeZigzag64 (v : Int64) : UInt64 := ⟨encodeZigzag v.toBitVec⟩

def decodeZigzag32 (v : UInt32) : Int32 := ⟨⟨decodeZigzag v.toBitVec⟩⟩

def decodeZigzag64 (v : UInt64) : Int64 := ⟨⟨decodeZigzag v.toBitVec⟩⟩

/-- The encoding loop with `room` bytes of `tmp` left: a byte stored past them is an overrun. -/
def varintLoop : Nat → Nat → Except Fault (List UInt8)
  | 0, _ => .error .overrun
  | room + 1, value =>
    if value ≥ 0x80 then do
      -- seven bits to a byte, whose top bit says that more follow
      let more ← varintLoop room (value >>> 7)
      .ok (UInt8.ofNat ((value &&& 0x7F) ||| 0x80) :: more)
    else .ok [UInt8.ofNat value]

def writeVarint (room value : Nat) : M Unit := fun s =>
  match varintLoop room value with
  | .error fault => .error fault s
  | .ok tmp => write tmp s

/-- `uint8_t tmp[5]`. -/
def writeUint32 (value : UInt32) : M Unit := writeVarint 5 value.toNat

/-- `uint8_t tmp[10]`. -/
def writeUint64 (value : UInt64) : M Unit := writeVarint 10 value.toNat

def writeInt32 (value : Int32) : M Unit := writeUint32 (encodeZigzag32 value)

def writeInt64 (value : Int64) : M Unit := writeUint64 (encodeZigzag64 value)

/-- `for(int i = 0; i < w; i += 7)` on a result of `w` bits, which a shift may leave; `fuel`
bounds the number of iterations. -/
def readVarintLoop (w : Nat) : Nat → Nat → Nat → M Nat
  | 0, _, result => return result
  | fuel + 1, i, result => do
    if i < w then
      let b ← readFuint8
      if b < 0x80 then return result ||| (b.toNat <<< i) % 2 ^ w
      else readVarintLoop w fuel (i + 7) (result ||| ((b &&& 0x7F).toNat <<< i) % 2 ^ w)
    -- no byte ended the value within its width
    else return result

def readUint32 : M UInt32 := do return UInt32.ofNat (← readVarintLoop 32 32 0 0)

def readUint64 : M UInt64 := do return UInt64.ofNat (← readVarintLoop 64 64 0 0)

def readInt32 : M Int32 := do return decodeZigzag32 (← readUint32)

def readInt64 : M Int64 := do return decodeZigzag64 (← readUint64)

/-! ### Values of mixed types -/

/-- The types that have a writer and a matching reader. -/
inductive Kind where
  | fint8 | fuint8 | fint16 | fuint16 | fint32 | fuint32 | fint64 | fuint64
  | int32 | uint32 | int64 | uint64
  | float | double
  deriving DecidableEq, Repr

namespace Kind

def Carrier : Kind → Type
  | fint8 => Int8
  | fuint8 => UInt8
  | fint16 => Int16
  | fuint16 => UInt16
  | fint32 => Int32
  | fuint32 => UInt32
  | fint64 => Int64
  | fuint64 => UInt64
  | int32 => Int32
  | uint32 => UInt32
  | int64 => Int64
  | uint64 => UInt64
  | float => UInt32
  | double => UInt64

def write (host : Endian) : (kind : Kind) → kind.Carrier → M Unit
  | fint8 => writeFint8
  | fuint8 => writeFuint8
  | fint16 => writeFint16 host
  | fuint16 => writeFuint16 host
  | fint32 => writeFint32 host
  | fuint32 => writeFuint32 host
  | fint64 => writeFint64 host
  | fuint64 => writeFuint64 host
  | int32 => writeInt32
  | uint32 => writeUint32
  | int64 => writeInt64
  | uint64 => writeUint64
  | float => writeFloat host
  | double => writeDouble host

def read (host : Endian) : (kind : Kind) → M kind.Carrier
  | fint8 => readFint8
  | fuint8 => readFuint8
  | fint16 => readFint16 host
  | fuint16 => readFuint16 host
  | fint32 => readFint32 host
  | fuint32 => readFuint32 host
  | fint64 => readFint64 host
  | fuint64 => readFuint64 host
  | int32 => readInt32
  | uint32 => readUint32
  | int64 => readInt64
  | uint64 => readUint64
  | float => readFloat host
  | double => readDouble host

end Kind

abbrev Value : Type := (kind : Kind) × kind.Carrier

def writeAll (host : Endian) : List Value → M Unit
  | [] => return ()
  | ⟨kind, value⟩ :: rest => do
    kind.write host value
    writeAll host rest

def readAll (host : Endian) : List Kind → M (List Value)
  | [] => return []
  | kind :: rest => do
    let value ← kind.read host
    return ⟨kind, value⟩ :: (← readAll host rest)

/-! ### Strings -/

/-- A string is its length, which `writeLength` may shorten to its own type, and its bytes. -/
def writeString (writeLength : Nat → M Unit) (value : List UInt8) : M Unit := do
  writeLength value.length
  write value

/-- `buff.resize(len); read(&buff[0], len);` -/
def readString (readLength : M Nat) : M (List UInt8) := do
  let len ← readLength
  read len

section Strings

variable (host : Endian)

def writeStringF16 : List UInt8 → M Unit :=
  writeString fun size => writeFuint16 host (UInt16.ofNat size)

def writeStringF32 : List UInt8 → M Unit :=
  writeString fun size => writeFuint32 host (UInt32.ofNat size)

def writeStringF64 : List UInt8 → M Unit :=
  writeString fun size => writeFuint64 host (UInt64.ofNat size)

def writeStringVint : List UInt8 → M Unit :=
  writeString fun size => writeUint64 (UInt64.ofNat size)

def writeStringWithoutLength (value : List UInt8) : M Unit := write value

def readStringF16 : M (List UInt8) := readString do return (← readFuint16 host).toNat

def readStringF32 : M (List UInt8) := readString do return (← readFuint32 host).toNat

def readStringF64 : M (List UInt8) := readString do return (← readFuint64 host).toNat

def readStringVint : M (List UInt8) := readString do return (← readUint64).toNat

end Strings

end Dwframe.ByteArray
