import Dwframe.ByteArray.Model
import Dwframe.Lib.Bits

/-!
# Prefixes of an IPv4 address

`subnetMask`, `networkAddress` and `broadcastAddress` share `CreateMask`, which gives the bits
behind the prefix. An `int` is a `BitVec 32`; what C++ leaves undefined about it is a parameter.
-/
namespace Dwframe

open Lib

/-- What the compiler makes of `int` operations that have no defined result. -/
structure IntFaults where
  /-- `1 << n` where `n` is not below the width. -/
  shift : Nat → BitVec 32
  /-- `INT_MIN - 1`. -/
  underflow : BitVec 32

namespace IntFaults

/-- `1 << n`. -/
def oneShift (faults : IntFaults) (n : Nat) : BitVec 32 :=
  if n < 32 then 1#32 <<< n else faults.shift n

/-- `value - 1`. -/
def minusOne (faults : IntFaults) (value : BitVec 32) : BitVec 32 :=
  if value = BitVec.intMin 32 then faults.underflow else value - 1#32

/-- Below the sign bit nothing is left to the compiler. -/
theorem minusOne_oneShift {faults : IntFaults} {n : Nat} (inside : n < 31) :
    faults.minusOne (faults.oneShift n) = lowMask 32 n := by
  rw [oneShift, if_pos (by omega), minusOne, lowMask]
  apply if_neg
  intro smallest
  -- only `1 << 31` is the smallest `int`
  have below : 2 ^ n < 2 ^ 31 := Nat.pow_lt_pow_right Nat.one_lt_two inside
  have same := congrArg BitVec.toNat smallest
  rw [BitVec.toNat_shiftLeft, BitVec.toNat_ofNat, Nat.one_mod, Nat.one_shiftLeft,
    Nat.mod_eq_of_lt (by omega), BitVec.toNat_intMin] at same
  omega

end IntFaults

/-- `sizeof(T) * 8 - bits` for `uint32_t`, computed in `size_t`. -/
def shiftAmount (bits : BitVec 32) : Nat := (32#64 - bits.setWidth 64).toNat

/-- `CreateMask<uint32_t>`. -/
def createMask (faults : IntFaults) (bits : BitVec 32) : BitVec 32 :=
  faults.minusOne (faults.oneShift (shiftAmount bits))

/-- A machine of the other byte order leaves the value as it is. -/
def byteswapOnLittleEndian {w : Nat} (host : Endian) (t : BitVec w) : BitVec w :=
  match host with
  | .little => swapBytes t
  | .big => t

/-- `sockaddr_in` without its padding; the port and the address are in network byte order. -/
structure SockaddrIn where
  sin_family : BitVec 16
  sin_port : BitVec 16
  s_addr : BitVec 32
  deriving DecidableEq

def AF_INET : BitVec 16 := 2#16

structure IPv4Address where
  m_addr : SockaddrIn
  deriving DecidableEq

namespace IPv4Address

/-- The address in host byte order. -/
def address (host : Endian) (a : IPv4Address) : BitVec 32 :=
  byteswapOnLittleEndian host a.m_addr.s_addr

def broadcastAddress (host : Endian) (faults : IntFaults) (a : IPv4Address)
    (prefix_len : BitVec 32) : Option IPv4Address :=
  if prefix_len > 32#32 then none
  else
    some ⟨{ a.m_addr with
      s_addr := a.m_addr.s_addr |||
        byteswapOnLittleEndian host (createMask faults prefix_len) }⟩

def networkAddress (host : Endian) (faults : IntFaults) (a : IPv4Address)
    (prefix_len : BitVec 32) : Option IPv4Address :=
  if prefix_len > 32#32 then none
  else
    some ⟨{ a.m_addr with
      s_addr := a.m_addr.s_addr &&&
        byteswapOnLittleEndian host (createMask faults prefix_len) }⟩

def subnetMask (host : Endian) (faults : IntFaults) (prefix_len : BitVec 32) : IPv4Address :=
  ⟨⟨AF_INET, 0#16, ~~~byteswapOnLittleEndian host (createMask faults prefix_len)⟩⟩

variable {host : Endian} {faults : IntFaults} {a : IPv4Address} {prefix_len : BitVec 32}

/-! ### Host byte order -/

theorem byteswap_byteswap (x : BitVec 32) :
    byteswapOnLittleEndian host (byteswapOnLittleEndian host x) = x := by
  cases host with
  | little => exact swapBytes_swapBytes (by decide) x
  | big => rfl

theorem byteswap_and (x y : BitVec 32) :
    byteswapOnLittleEndian host (x &&& y) =
      byteswapOnLittleEndian host x &&& byteswapOnLittleEndian host y := by
  cases host with
  | little => exact swapBytes_and x y
  | big => rfl

theorem byteswap_or (x y : BitVec 32) :
    byteswapOnLittleEndian host (x ||| y) =
      byteswapOnLittleEndian host x ||| byteswapOnLittleEndian host y := by
  cases host with
  | little => exact swapBytes_or x y
  | big => rfl

theorem byteswap_not (x : BitVec 32) :
    byteswapOnLittleEndian host (~~~x) = ~~~byteswapOnLittleEndian host x := by
  cases host with
  | little => exact swapBytes_not (by decide) x
  | big => rfl

@[simp] theorem subnetMask_address :
    (subnetMask host faults prefix_len).address host = ~~~createMask faults prefix_len := by
  rw [address, subnetMask, byteswap_not, byteswap_byteswap]

/-- The copy that the two functions make, with the host bits set or alone. -/
theorem broadcastAddress_eq (in_range : prefix_len.toNat ≤ 32) :
    ∃ b, a.broadcastAddress host faults prefix_len = some b ∧
      b.address host = a.address host ||| createMask faults prefix_len ∧
      b.m_addr.sin_port = a.m_addr.sin_port ∧ b.m_addr.sin_family = a.m_addr.sin_family := by
  rw [broadcastAddress, if_neg (show ¬prefix_len > 32#32 from Nat.not_lt.mpr in_range)]
  exact ⟨_, rfl, by rw [address, byteswap_or, byteswap_byteswap, address], rfl, rfl⟩

theorem networkAddress_eq (in_range : prefix_len.toNat ≤ 32) :
    ∃ n, a.networkAddress host faults prefix_len = some n ∧
      n.address host = a.address host &&& createMask faults prefix_len ∧
      n.m_addr.sin_port = a.m_addr.sin_port ∧ n.m_addr.sin_family = a.m_addr.sin_family := by
  rw [networkAddress, if_neg (show ¬prefix_len > 32#32 from Nat.not_lt.mpr in_range)]
  exact ⟨_, rfl, by rw [address, byteswap_and, byteswap_byteswap, address], rfl, rfl⟩

/-! ### The mask -/

theorem shiftAmount_eq (in_range : prefix_len.toNat ≤ 32) :
    shiftAmount prefix_len = 32 - prefix_len.toNat := by
  simp only [shiftAmount, BitVec.toNat_sub, BitVec.toNat_setWidth, BitVec.toNat_ofNat]
  omega

/-- At prefix 1 the `int` is the smallest one. -/
theorem createMask_one : createMask faults 1#32 = faults.underflow := rfl

theorem createMask_inside (inside : 1 < prefix_len.toNat) (in_range : prefix_len.toNat ≤ 32) :
    createMask faults prefix_len = lowMask 32 (32 - prefix_len.toNat) := by
  rw [createMask, shiftAmount_eq in_range]
  exact IntFaults.minusOne_oneShift (by omega)

/-- The result of `INT_MIN - 1` matters at prefix 1 alone. -/
def Wraps (faults : IntFaults) (prefix_len : BitVec 32) : Prop :=
  prefix_len.toNat = 1 → faults.underflow = BitVec.intMax 32

theorem createMask_eq (positive : 0 < prefix_len.toNat) (in_range : prefix_len.toNat ≤ 32)
    (wraps : Wraps faults prefix_len) :
    createMask faults prefix_len = lowMask 32 (32 - prefix_len.toNat) := by
  by_cases one : prefix_len.toNat = 1
  · have same : prefix_len = 1#32 := BitVec.eq_of_toNat_eq one
    rw [one, same, createMask_one, wraps one]
    rfl
  · exact createMask_inside (by omega) in_range

/-- What `subnetMask` and `broadcastAddress` are for. -/
structure Masks (host : Endian) (faults : IntFaults) (a : IPv4Address) (prefix_len : BitVec 32) :
    Prop where
  shift : shiftAmount prefix_len < 32
  subnet : ∀ i < 32, ((subnetMask host faults prefix_len).address host).getMsbD i =
    decide (i < prefix_len.toNat)
  broadcast : ∃ b, a.broadcastAddress host faults prefix_len = some b ∧
    b.address host = a.address host ||| ~~~(subnetMask host faults prefix_len).address host ∧
    b.m_addr.sin_port = a.m_addr.sin_port ∧ b.m_addr.sin_family = a.m_addr.sin_family

/-- The three functions split an address at the prefix. -/
structure Splits (host : Endian) (faults : IntFaults) (a : IPv4Address) (prefix_len : BitVec 32) :
    Prop extends Masks host faults a prefix_len where
  network : ∃ n, a.networkAddress host faults prefix_len = some n ∧
    n.address host = a.address host &&& (subnetMask host faults prefix_len).address host ∧
    n.m_addr.sin_port = a.m_addr.sin_port ∧ n.m_addr.sin_family = a.m_addr.sin_family

theorem subnetMask_bit {i : Nat} (inside : i < 32) :
    ((subnetMask host faults prefix_len).address host).getMsbD i =
      !(createMask faults prefix_len).getLsbD (31 - i) := by
  rw [subnetMask_address, BitVec.getMsbD_eq_getLsbD, BitVec.getLsbD_not]
  have flipped : 32 - 1 - i < 32 := by omega
  simp only [inside, flipped, decide_true, Bool.true_and]

/-- Every prefix but 0 has its mask, and with it its broadcast address. -/
theorem masks_iff (in_range : prefix_len.toNat ≤ 32) :
    Masks host faults a prefix_len ↔ 0 < prefix_len.toNat ∧ Wraps faults prefix_len := by
  constructor
  · rintro ⟨shift, subnet, -⟩
    rw [shiftAmount_eq in_range] at shift
    refine ⟨by omega, fun one => ?_⟩
    -- at prefix 1 the mask is what the subtraction gave, and its bits are asked for
    apply BitVec.eq_of_getLsbD_eq
    intro i inside
    have same : prefix_len = 1#32 := BitVec.eq_of_toNat_eq one
    have bit := subnet (31 - i) (by omega)
    rw [subnetMask_bit (by omega), same, createMask_one, show 31 - (31 - i) = i by omega,
      Bool.not_eq_eq_eq_not, ← decide_not] at bit
    rw [bit, show BitVec.intMax 32 = lowMask 32 31 from rfl, getLsbD_lowMask (by decide)]
    exact decide_eq_decide.mpr (show ¬31 - i < 1 ↔ i < 31 by omega)
  · rintro ⟨positive, wraps⟩
    have mask := createMask_eq positive in_range wraps
    obtain ⟨b, made, is_or, kept⟩ := @broadcastAddress_eq host faults a prefix_len in_range
    refine ⟨by rw [shiftAmount_eq in_range]; omega, fun i inside => ?_, b, made, ?_, kept⟩
    · rw [subnetMask_bit inside, mask, getLsbD_lowMask (by omega), ← decide_not]
      exact decide_eq_decide.mpr (by omega)
    · rw [is_or, subnetMask_address, BitVec.not_not]

/-- `networkAddress` keeps the bits that it should clear, so only 0.0.0.0 is right. -/
theorem splits_iff (in_range : prefix_len.toNat ≤ 32) :
    Splits host faults a prefix_len ↔
      0 < prefix_len.toNat ∧ Wraps faults prefix_len ∧ a.address host = 0#32 := by
  obtain ⟨n, made, is_and, kept⟩ := @networkAddress_eq host faults a prefix_len in_range
  rw [← and_assoc, ← masks_iff in_range]
  constructor
  · rintro ⟨masks, n', made', is_network, -⟩
    cases made.symm.trans made'
    have same := is_and.symm.trans is_network
    rw [subnetMask_address] at same
    exact ⟨masks, (and_eq_and_not_iff _ _).mp same⟩
  · rintro ⟨masks, zero⟩
    exact ⟨masks, n, made, by rw [is_and, zero, BitVec.zero_and, BitVec.zero_and], kept⟩

/-- What the instructions of the machine do: the shift amount is taken modulo the width. -/
def machine : IntFaults := ⟨fun n => 1#32 <<< (n % 32), BitVec.intMax 32⟩

theorem splits_iff_any_address :
    (24#32).toNat ≤ 32 ∧
      (Splits .little machine ⟨⟨AF_INET, 0#16, 0#32⟩⟩ 24#32 ↔
        0 < (24#32).toNat ∧ Wraps machine 24#32 ∧
          address .little ⟨⟨AF_INET, 0#16, 0#32⟩⟩ = 0#32) :=
  ⟨by decide, splits_iff (by decide)⟩

/-- 192.168.1.10 with 24 bits has the network 0.0.0.10; with 0 bits the shift is by the width. -/
theorem network_is_host_part :
    ∃ a : IPv4Address, a.address .little = 0xC0A8010A#32 ∧
      (∃ n, a.networkAddress .little machine 24#32 = some n ∧ n.address .little = 0x0000000A#32) ∧
      ¬Splits .little machine a 24#32 ∧
      shiftAmount 0#32 = 32 ∧ ¬Splits .little machine a 0#32 := by
  have stored : address .little ⟨⟨AF_INET, 0#16, 0x0A01A8C0#32⟩⟩ = 0xC0A8010A#32 := by
    apply BitVec.eq_of_getLsbD_eq
    intro i inside
    rw [address, byteswapOnLittleEndian, getLsbD_swapBytes _ inside]
    revert i
    decide
  obtain ⟨n, made, is_and, -⟩ := @networkAddress_eq .little machine
    ⟨⟨AF_INET, 0#16, 0x0A01A8C0#32⟩⟩ 24#32 (by decide)
  rw [stored] at is_and
  refine ⟨_, stored, ⟨n, made, is_and⟩, ?_, rfl, ?_⟩
  · rintro ⟨-, n', made', is_network, -⟩
    cases made.symm.trans made'
    rw [is_and, stored, subnetMask_address] at is_network
    exact absurd is_network (by decide)
  · rintro ⟨⟨shift, -, -⟩, -⟩
    exact absurd shift (by decide)

end IPv4Address

end Dwframe
