import Dwframe.Address.IPv4

/-!
# Prefixes of an IPv6 address

Each of `subnetMask`, `networkAddress` and `broadcastAddress` patches the byte that the prefix
ends in and fills the bytes on one side of it. None of them checks the prefix, so the byte may be
one behind the address.
-/
namespace Dwframe

open Lib

/-- `CreateMask<uint8_t>`; the arithmetic is that of `int`. -/
def createByteMask (faults : IntFaults) (bits : BitVec 32) : BitVec 8 :=
  (faults.minusOne (faults.oneShift (8#64 - bits.setWidth 64).toNat)).setWidth 8

/-- `sockaddr_in6`; the port is in network byte order. -/
structure SockaddrIn6 where
  sin6_family : BitVec 16
  sin6_port : BitVec 16
  sin6_flowinfo : BitVec 32
  s6_addr : Vector (BitVec 8) 16
  sin6_scope_id : BitVec 32
  deriving DecidableEq

def AF_INET6 : BitVec 16 := 10#16

structure IPv6Address where
  m_addr : SockaddrIn6
  deriving DecidableEq

/-- `bytes[i] = change(bytes[i])`, or `none` where there is no such byte. -/
def patchByte (bytes : Vector (BitVec 8) 16) (i : Nat) (change : BitVec 8 → BitVec 8) :
    Option (Vector (BitVec 8) 16) :=
  if inside : i < 16 then some (bytes.set i (change bytes[i])) else none

/-- The loop that stores `value` in `count` bytes from the `i`-th on. -/
def fillBytes (value : BitVec 8) (i : Nat) :
    Nat → Vector (BitVec 8) 16 → Option (Vector (BitVec 8) 16)
  | 0, bytes => some bytes
  | count + 1, bytes => do
    fillBytes value (i + 1) count (← patchByte bytes i fun _ => value)

namespace IPv6Address

/-- The byte that the prefix ends in. -/
def byteIndex (prefix_len : BitVec 32) : Nat := (prefix_len / 8#32).toNat

/-- A copy with the byte that the prefix ends in changed and `value` in those after it. -/
def changeFrom (a : IPv6Address) (prefix_len : BitVec 32) (change : BitVec 8 → BitVec 8)
    (value : BitVec 8) : Option IPv6Address := do
  let patched ← patchByte a.m_addr.s6_addr (byteIndex prefix_len) change
  let filled ← fillBytes value (byteIndex prefix_len + 1) (16 - (byteIndex prefix_len + 1)) patched
  return ⟨{ a.m_addr with s6_addr := filled }⟩

def broadcastAddress (faults : IntFaults) (a : IPv6Address) (prefix_len : BitVec 32) :
    Option IPv6Address :=
  a.changeFrom prefix_len (· ||| createByteMask faults (prefix_len % 8#32)) 0xff#8

def networkAddress (faults : IntFaults) (a : IPv6Address) (prefix_len : BitVec 32) :
    Option IPv6Address :=
  a.changeFrom prefix_len (· &&& createByteMask faults (prefix_len % 8#32)) 0x00#8

def subnetMask (faults : IntFaults) (prefix_len : BitVec 32) : Option IPv6Address := do
  let patched ← patchByte (Vector.replicate 16 0#8) (byteIndex prefix_len)
    fun _ => ~~~createByteMask faults (prefix_len % 8#32)
  let filled ← fillBytes 0xff#8 0 (byteIndex prefix_len) patched
  return ⟨⟨AF_INET6, 0#16, 0#32, filled, 0#32⟩⟩

/-- The bit of the address with `i` bits before it. -/
def bit (a : IPv6Address) (i : Nat) (_ : i < 128) : Bool :=
  a.m_addr.s6_addr[i / 8].getMsbD (i % 8)

/-- What the three functions are for; `s`, `n` and `b` are their results. -/
structure Parts (faults : IntFaults) (a : IPv6Address) (prefix_len : BitVec 32)
    (s n b : IPv6Address) : Prop where
  mask : ∀ (i : Nat) (inside : i < 128), s.bit i inside = decide (i < prefix_len.toNat)
  network : ∀ (j : Nat) (_ : j < 16),
    n.m_addr.s6_addr[j] = a.m_addr.s6_addr[j] &&& s.m_addr.s6_addr[j]
  broadcast : ∀ (j : Nat) (_ : j < 16),
    b.m_addr.s6_addr[j] = a.m_addr.s6_addr[j] ||| ~~~s.m_addr.s6_addr[j]
  idempotent : n.networkAddress faults prefix_len = some n

/-- Every index is one of a byte of the address, and the results are the parts at the prefix. -/
def DividesAt (faults : IntFaults) (a : IPv6Address) (prefix_len : BitVec 32) : Prop :=
  ∃ s n b, subnetMask faults prefix_len = some s ∧ a.networkAddress faults prefix_len = some n ∧
    a.broadcastAddress faults prefix_len = some b ∧ Parts faults a prefix_len s n b

variable {faults : IntFaults} {a : IPv6Address} {prefix_len : BitVec 32}

/-! ### Bytes -/

theorem patchByte_eq {bytes : Vector (BitVec 8) 16} {i : Nat} {change : BitVec 8 → BitVec 8}
    (inside : i < 16) :
    ∃ patched, patchByte bytes i change = some patched ∧ ∀ (j : Nat) (_ : j < 16),
      patched[j] = if i = j then change bytes[j] else bytes[j] := by
  refine ⟨_, dif_pos inside, fun j below => ?_⟩
  rw [Vector.getElem_set]
  split
  case isTrue same => simp only [same]
  case isFalse => rfl

theorem fillBytes_eq {value : BitVec 8} {i count : Nat} {bytes : Vector (BitVec 8) 16}
    (inside : i + count ≤ 16) :
    ∃ filled, fillBytes value i count bytes = some filled ∧ ∀ (j : Nat) (_ : j < 16),
      filled[j] = if i ≤ j ∧ j < i + count then value else bytes[j] := by
  induction count generalizing i bytes with
  | zero => exact ⟨bytes, rfl, fun j _ => (if_neg (by omega)).symm⟩
  | succ count ih =>
    obtain ⟨patched, stored, at_i⟩ := @patchByte_eq bytes i (fun _ => value) (by omega)
    obtain ⟨filled, rest, after_i⟩ := @ih (i + 1) patched (by omega)
    refine ⟨filled, ?_, fun j below => ?_⟩
    · rw [fillBytes, stored]
      exact rest
    · rw [after_i, at_i]
      by_cases first : i = j
      · rw [if_neg (by omega), if_pos first, if_pos (by omega)]
      · rw [if_neg first]
        exact if_congr (by omega) rfl rfl

theorem byteIndex_eq : byteIndex prefix_len = prefix_len.toNat / 8 := BitVec.toNat_udiv

theorem bitsLeft_eq : (prefix_len % 8#32).toNat = prefix_len.toNat % 8 := BitVec.toNat_umod

theorem createByteMask_bit {bits : BitVec 32} (in_byte : bits.toNat < 8) (i : Nat) :
    (createByteMask faults bits).getLsbD i = decide (i < 8 - bits.toNat) := by
  have amount : (8#64 - bits.setWidth 64).toNat = 8 - bits.toNat := by
    simp only [BitVec.toNat_sub, BitVec.toNat_setWidth, BitVec.toNat_ofNat]
    omega
  rw [createByteMask, amount, IntFaults.minusOne_oneShift (by omega), BitVec.getLsbD_setWidth,
    getLsbD_lowMask (by omega), ← Bool.decide_and]
  exact decide_eq_decide.mpr (by omega)

/-! ### The three results -/

theorem changeFrom_bytes {change : BitVec 8 → BitVec 8} {value : BitVec 8}
    (short : byteIndex prefix_len < 16) :
    ∃ bytes : Vector (BitVec 8) 16,
      a.changeFrom prefix_len change value = some ⟨{ a.m_addr with s6_addr := bytes }⟩ ∧
      ∀ (j : Nat) (_ : j < 16), bytes[j] =
        if byteIndex prefix_len < j then value
        else if byteIndex prefix_len = j then change a.m_addr.s6_addr[j]
        else a.m_addr.s6_addr[j] := by
  obtain ⟨patched, stored, at_index⟩ := @patchByte_eq a.m_addr.s6_addr _ change short
  obtain ⟨filled, rest, after⟩ := @fillBytes_eq value (byteIndex prefix_len + 1)
    (16 - (byteIndex prefix_len + 1)) patched (by omega)
  refine ⟨filled, ?_, fun j below => ?_⟩
  · rw [changeFrom, stored, Option.bind_eq_bind, Option.bind_some, rest]
    rfl
  · rw [after, at_index]
    exact if_congr (by omega) rfl rfl

theorem subnetMask_bytes (short : byteIndex prefix_len < 16) :
    ∃ s, subnetMask faults prefix_len = some s ∧ ∀ (j : Nat) (_ : j < 16),
      s.m_addr.s6_addr[j] =
        if j < byteIndex prefix_len then 0xff#8
        else if byteIndex prefix_len = j then ~~~createByteMask faults (prefix_len % 8#32)
        else 0x00#8 := by
  obtain ⟨patched, stored, at_index⟩ := patchByte_eq short
  obtain ⟨filled, rest, before⟩ := @fillBytes_eq 0xff#8 0 (byteIndex prefix_len) patched (by omega)
  refine ⟨⟨⟨AF_INET6, 0#16, 0#32, filled, 0#32⟩⟩, ?_, fun j below => ?_⟩
  · rw [subnetMask, stored, Option.bind_eq_bind, Option.bind_some, rest]
    rfl
  · show filled[j] = _
    rw [before, at_index, Vector.getElem_replicate]
    exact if_congr (by omega) rfl rfl

/-- With all 128 bits in the prefix the patched byte is the one behind the address. -/
theorem subnetMask_outside (outside : ¬byteIndex prefix_len < 16) :
    subnetMask faults prefix_len = none := by
  rw [subnetMask, patchByte, dif_neg outside]
  rfl

theorem subnetMask_bit {s : IPv6Address} (made : subnetMask faults prefix_len = some s)
    (short : byteIndex prefix_len < 16) (i : Nat) (inside : i < 128) :
    s.bit i inside = decide (i < prefix_len.toNat) := by
  obtain ⟨s', made', bytes⟩ := @subnetMask_bytes faults prefix_len short
  cases made.symm.trans made'
  rw [bit, bytes, byteIndex_eq]
  split
  case isTrue before =>
    rw [show 0xff#8 = BitVec.allOnes 8 from rfl, BitVec.getMsbD_allOnes]
    exact decide_eq_decide.mpr (by omega)
  case isFalse not_before =>
    split
    case isTrue same =>
      have in_byte : i % 8 < 8 := Nat.mod_lt i (by decide)
      have flipped : 8 - 1 - i % 8 < 8 := by omega
      have bits_left := @bitsLeft_eq prefix_len
      rw [BitVec.getMsbD_eq_getLsbD, BitVec.getLsbD_not, createByteMask_bit (by omega),
        ← decide_not]
      simp only [in_byte, flipped, decide_true, Bool.true_and]
      exact decide_eq_decide.mpr (by omega)
    case isFalse after =>
      rw [BitVec.getMsbD_zero]
      exact (decide_eq_false (by omega)).symm

/-- The part of the address in front of the prefix's end byte is kept, the byte is masked. -/
theorem networkAddress_twice {n : IPv6Address} (made : a.networkAddress faults prefix_len = some n)
    (short : byteIndex prefix_len < 16) : n.networkAddress faults prefix_len = some n := by
  obtain ⟨bytes, first, at_first⟩ := @changeFrom_bytes a prefix_len
    (· &&& createByteMask faults (prefix_len % 8#32)) 0x00#8 short
  cases made.symm.trans first
  obtain ⟨again, second, at_second⟩ := @changeFrom_bytes ⟨{ a.m_addr with s6_addr := bytes }⟩
    prefix_len (· &&& createByteMask faults (prefix_len % 8#32)) 0x00#8 short
  have same : again = bytes := by
    apply Vector.ext
    intro j below
    rw [at_second, at_first]
    split
    · rfl
    · split
      · rw [BitVec.and_assoc, BitVec.and_self]
      · rfl
  rw [networkAddress, second, same]

/-- `networkAddress` keeps the bits of the patched byte that it should clear. -/
theorem networkAddress_iff {s n : IPv6Address} (subnet : subnetMask faults prefix_len = some s)
    (network : a.networkAddress faults prefix_len = some n) (short : byteIndex prefix_len < 16) :
    (∀ (j : Nat) (_ : j < 16),
      n.m_addr.s6_addr[j] = a.m_addr.s6_addr[j] &&& s.m_addr.s6_addr[j]) ↔
      a.m_addr.s6_addr[byteIndex prefix_len] = 0#8 := by
  obtain ⟨n', made, n_bytes⟩ := @changeFrom_bytes a prefix_len
    (· &&& createByteMask faults (prefix_len % 8#32)) 0x00#8 short
  obtain ⟨s', made', s_bytes⟩ := @subnetMask_bytes faults prefix_len short
  cases network.symm.trans made
  cases subnet.symm.trans made'
  rw [← and_eq_and_not_iff _ (createByteMask faults (prefix_len % 8#32))]
  constructor
  · intro parts
    have patched := parts (byteIndex prefix_len) short
    rwa [n_bytes, s_bytes, if_neg (lt_irrefl _), if_neg (lt_irrefl _), if_pos rfl,
      if_pos rfl] at patched
  · intro zero j below
    rw [n_bytes, s_bytes]
    rcases Nat.lt_trichotomy (byteIndex prefix_len) j with after | rfl | before
    · rw [if_pos after, if_neg (by omega), if_neg (by omega), BitVec.and_zero]
    · rwa [if_neg (lt_irrefl _), if_neg (lt_irrefl _), if_pos rfl, if_pos rfl]
    · rw [if_neg (by omega), if_neg (by omega), if_pos before]
      exact BitVec.and_allOnes.symm

theorem broadcastAddress_parts {s b : IPv6Address}
    (subnet : subnetMask faults prefix_len = some s)
    (broadcast : a.broadcastAddress faults prefix_len = some b) (short : byteIndex prefix_len < 16)
    (j : Nat) (_ : j < 16) :
    b.m_addr.s6_addr[j] = a.m_addr.s6_addr[j] ||| ~~~s.m_addr.s6_addr[j] := by
  obtain ⟨b', made, b_bytes⟩ := @changeFrom_bytes a prefix_len
    (· ||| createByteMask faults (prefix_len % 8#32)) 0xff#8 short
  obtain ⟨s', made', s_bytes⟩ := @subnetMask_bytes faults prefix_len short
  cases broadcast.symm.trans made
  cases subnet.symm.trans made'
  rw [b_bytes, s_bytes]
  rcases Nat.lt_trichotomy (byteIndex prefix_len) j with after | rfl | before
  · rw [if_pos after, if_neg (by omega), if_neg (by omega)]
    exact BitVec.or_allOnes.symm
  · rw [if_neg (lt_irrefl _), if_neg (lt_irrefl _), if_pos rfl, if_pos rfl, BitVec.not_not]
  · rw [if_neg (by omega), if_neg (by omega), if_pos before]
    exact BitVec.or_zero.symm

theorem dividesAt_iff_byte :
    DividesAt faults a prefix_len ↔
      ∃ _ : byteIndex prefix_len < 16, a.m_addr.s6_addr[byteIndex prefix_len] = 0#8 := by
  constructor
  · rintro ⟨s, n, b, subnet, network, -, parts⟩
    have short : byteIndex prefix_len < 16 := by
      by_contra outside
      exact Option.some_ne_none s (subnet.symm.trans (subnetMask_outside outside))
    exact ⟨short, (networkAddress_iff subnet network short).mp parts.network⟩
  · rintro ⟨short, zero⟩
    obtain ⟨s, subnet, -⟩ := @subnetMask_bytes faults prefix_len short
    obtain ⟨_, network, -⟩ := @changeFrom_bytes a prefix_len
      (· &&& createByteMask faults (prefix_len % 8#32)) 0x00#8 short
    obtain ⟨_, broadcast, -⟩ := @changeFrom_bytes a prefix_len
      (· ||| createByteMask faults (prefix_len % 8#32)) 0xff#8 short
    exact ⟨s, _, _, subnet, network, broadcast, subnetMask_bit subnet short,
      (networkAddress_iff subnet network short).mpr zero,
      broadcastAddress_parts subnet broadcast short, networkAddress_twice network short⟩

/-- All results are right where the prefix ends in a byte of the address that is zero. -/
theorem dividesAt_iff :
    DividesAt faults a prefix_len ↔
      ∃ _ : prefix_len.toNat / 8 < 16, a.m_addr.s6_addr[prefix_len.toNat / 8] = 0#8 := by
  simpa only [byteIndex_eq] using @dividesAt_iff_byte faults a prefix_len

/-- 2001:db8::1 with 24 bits has the network 2001:db8:: and not 2001:d00::; with 128 bits all
functions reach behind the address. -/
theorem network_keeps_host_bits :
    ∃ a : IPv6Address,
      a.m_addr.s6_addr =
        #v[0x20#8, 0x01#8, 0x0d#8, 0xb8#8, 0#8, 0#8, 0#8, 0#8, 0#8, 0#8, 0#8, 0#8, 0#8, 0#8, 0#8,
          0x01#8] ∧
      (∃ n, a.networkAddress IPv4Address.machine 24#32 = some n ∧ n.m_addr.s6_addr[3] = 0xb8#8) ∧
      ¬DividesAt IPv4Address.machine a 24#32 ∧
      subnetMask IPv4Address.machine 128#32 = none ∧
      ¬DividesAt IPv4Address.machine a 128#32 := by
  refine ⟨⟨⟨AF_INET6, 0#16, 0#32, _, 0#32⟩⟩, rfl, ⟨_, rfl, rfl⟩, ?_, rfl, ?_⟩
  · rw [dividesAt_iff_byte]
    rintro ⟨_, zero⟩
    exact absurd (show 0xb8#8 = 0#8 from zero) (by decide)
  · rw [dividesAt_iff_byte]
    rintro ⟨outside, _⟩
    exact absurd outside (by decide)

end IPv6Address

end Dwframe
