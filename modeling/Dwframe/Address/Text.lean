import Dwframe.Address.IPv6
import Dwframe.Lib.InetText
import Mathlib.Data.List.TakeWhile

/-!
# The text of an IPv6 address with its port

`insert` leaves out the first run of zero groups in one pass: a flag says that a run was left out,
and the group before the current one says that a run has just ended.
-/
namespace Dwframe

open Lib

/-- A `std::ostream` with the base of the numbers written to it. -/
structure OStream where
  text : List Char
  base : Nat

namespace OStream

def puts (os : OStream) (s : String) : OStream := { os with text := os.text ++ s.toList }

def putNumber (os : OStream) (n : Nat) : OStream :=
  { os with text := os.text ++ Nat.toDigits os.base n }

def hex (os : OStream) : OStream := { os with base := 16 }

def dec (os : OStream) : OStream := { os with base := 10 }

end OStream

/-- The `uint16_t` at two bytes of the memory. -/
def load16 (host : Endian) (first second : BitVec 8) : BitVec 16 :=
  match host with
  | .little => second ++ first
  | .big => first ++ second

/-- The bytes that `inet_pton` stores for the groups. -/
def storeGroups (groups : List (BitVec 16)) : Vector (BitVec 8) 16 :=
  Vector.ofFn fun j : Fin 16 =>
    if j.val % 2 = 0 then (groups.getD (j / 2) 0#16).extractLsb' 8 8
    else (groups.getD (j / 2) 0#16).extractLsb' 0 8

namespace IPv6Address

def create (host : Endian) (address : List Char) (port : BitVec 16) : Option IPv6Address :=
  (inetPton6 address).map fun groups =>
    ⟨⟨AF_INET6, byteswapOnLittleEndian host port, 0#32, storeGroups groups, 0#32⟩⟩

def getPort (host : Endian) (a : IPv6Address) : BitVec 16 :=
  byteswapOnLittleEndian host a.m_addr.sin6_port

/-- `addr[i]`, with the address taken for an array of `uint16_t`. -/
def addr (host : Endian) (a : IPv6Address) (i : Nat) : BitVec 16 :=
  load16 host (a.m_addr.s6_addr.getD (2 * i) 0#8) (a.m_addr.s6_addr.getD (2 * i + 1) 0#8)

/-- A group that is not left out, with what stands before it. -/
def insertGroup (host : Endian) (a : IPv6Address) (i : Nat) (used_zeros : Bool) (os : OStream) :
    Bool × OStream :=
  let ended :=
    if i ≠ 0 ∧ a.addr host (i - 1) = 0#16 ∧ used_zeros = false then (true, os.puts ":")
    else (used_zeros, os)
  let os := if i ≠ 0 then ended.2.puts ":" else ended.2
  (ended.1, (os.hex.putNumber (byteswapOnLittleEndian host (a.addr host i)).toNat).dec)

/-- The loop from the `i`-th group on, with `used_zeros` and the stream. -/
def insertGroups (host : Endian) (a : IPv6Address) (i : Nat) :
    Nat → Bool → OStream → Bool × OStream
  | 0, used_zeros, os => (used_zeros, os)
  | count + 1, used_zeros, os =>
    if a.addr host i = 0#16 ∧ used_zeros = false then
      insertGroups host a (i + 1) count used_zeros os
    else
      let inserted := a.insertGroup host i used_zeros os
      insertGroups host a (i + 1) count inserted.1 inserted.2

def insert (host : Endian) (a : IPv6Address) (os : OStream) : OStream :=
  let inserted := a.insertGroups host 0 8 false (os.puts "[")
  let os := if inserted.1 = false ∧ a.addr host 7 = 0#16 then inserted.2.puts "::" else inserted.2
  (os.puts "]:").putNumber (a.getPort host).toNat

/-- `Address::toString`, on a stream of its own. -/
def toString (host : Endian) (a : IPv6Address) : List Char := (a.insert host ⟨[], 10⟩).text

variable {host : Endian} {a : IPv6Address}

/-! ### Groups -/

/-- The two bytes in the order of the address. -/
theorem byteswap_load16 (first second : BitVec 8) :
    byteswapOnLittleEndian host (load16 host first second) = first ++ second := by
  cases host with
  | big => rfl
  | little => exact swapBytes_append second first

/-- The `i`-th group, as it is printed. -/
def group (host : Endian) (a : IPv6Address) (i : Nat) : BitVec 16 :=
  byteswapOnLittleEndian host (a.addr host i)

theorem addr_eq_zero_iff {i : Nat} : a.addr host i = 0#16 ↔ a.group host i = 0#16 := by
  cases host with
  | little => exact (swapBytes_eq_zero_iff (by decide) _).symm
  | big => rfl

/-- `count` groups from the `i`-th on. -/
def groupsFrom (host : Endian) (a : IPv6Address) (i count : Nat) : List (BitVec 16) :=
  (List.range' i count).map (a.group host)

theorem groupsFrom_succ (i count : Nat) :
    groupsFrom host a i (count + 1) = a.group host i :: groupsFrom host a (i + 1) count := by
  rw [groupsFrom, List.range'_succ]
  rfl

def hexText (g : BitVec 16) : List Char := Nat.toDigits 16 g.toNat

/-- The groups with a colon before each. -/
def colonGroups (groups : List (BitVec 16)) : List Char :=
  groups.flatMap fun g => ':' :: hexText g

theorem joinGroups_hexText (g : BitVec 16) (groups : List (BitVec 16)) :
    joinGroups ((g :: groups).map hexText) = hexText g ++ colonGroups groups := by
  induction groups generalizing g with
  | nil => rw [List.map_singleton, joinGroups_singleton, colonGroups, List.flatMap_nil,
      List.append_nil]
  | cons next groups ih =>
    rw [List.map_cons, joinGroups_cons _ (by simp), ih next]
    rfl

/-! ### The loop -/

theorem insertGroup_first (used_zeros : Bool) (text : List Char) :
    a.insertGroup host 0 used_zeros ⟨text, 10⟩ =
      (used_zeros, ⟨text ++ hexText (a.group host 0), 10⟩) := rfl

theorem insertGroup_succ {i : Nat} {used_zeros : Bool}
    (not_ended : ¬(a.group host i = 0#16 ∧ used_zeros = false)) (text : List Char) :
    a.insertGroup host (i + 1) used_zeros ⟨text, 10⟩ =
      (used_zeros, ⟨text ++ ':' :: hexText (a.group host (i + 1)), 10⟩) := by
  rw [← addr_eq_zero_iff] at not_ended
  rw [insertGroup, if_neg fun all => not_ended all.2, if_pos i.succ_ne_zero, List.append_cons]
  rfl

/-- The run of zeros that ends here is what the two colons stand for. -/
theorem insertGroup_ended {i : Nat} (zero : a.group host i = 0#16) (text : List Char) :
    a.insertGroup host (i + 1) false ⟨text, 10⟩ =
      (true, ⟨text ++ ':' :: ':' :: hexText (a.group host (i + 1)), 10⟩) := by
  rw [insertGroup, if_pos ⟨i.succ_ne_zero, addr_eq_zero_iff.mpr zero, rfl⟩,
    if_pos i.succ_ne_zero, List.append_cons, List.append_cons _ ':']
  rfl

theorem insertGroups_shown {i count : Nat} {used_zeros : Bool}
    (shown : ¬(a.group host i = 0#16 ∧ used_zeros = false)) (os : OStream) :
    a.insertGroups host i (count + 1) used_zeros os =
      a.insertGroups host (i + 1) count (a.insertGroup host i used_zeros os).1
        (a.insertGroup host i used_zeros os).2 := by
  rw [← addr_eq_zero_iff] at shown
  rw [insertGroups, if_neg shown]

theorem insertGroups_skipped {i count : Nat} (zero : a.group host i = 0#16) (os : OStream) :
    a.insertGroups host i (count + 1) false os = a.insertGroups host (i + 1) count false os := by
  rw [insertGroups, if_pos ⟨addr_eq_zero_iff.mpr zero, rfl⟩]

/-- Behind the first run of zeros every group is printed. -/
theorem insertGroups_used (i count : Nat) (text : List Char) :
    a.insertGroups host (i + 1) count true ⟨text, 10⟩ =
      (true, ⟨text ++ colonGroups (groupsFrom host a (i + 1) count), 10⟩) := by
  induction count generalizing i text with
  | zero => rw [insertGroups, groupsFrom, List.range'_zero, List.map_nil, colonGroups,
      List.flatMap_nil, List.append_nil]
  | succ count ih =>
    rw [insertGroups_shown (by simp), insertGroup_succ (by simp), ih, groupsFrom_succ,
      List.append_assoc]
    rfl

/-- What is printed for the groups from a run of zeros on. -/
def afterRun (text : List Char) (groups : List (BitVec 16)) : Bool × OStream :=
  match groups.dropWhile (· = 0#16) with
  | [] => (false, ⟨text, 10⟩)
  | shown => (true, ⟨text ++ ':' :: colonGroups shown, 10⟩)

theorem afterRun_zero {g : BitVec 16} (zero : g = 0#16) (text : List Char)
    (groups : List (BitVec 16)) : afterRun text (g :: groups) = afterRun text groups := by
  rw [afterRun, afterRun, List.dropWhile_cons_of_pos (by simpa using zero)]

theorem afterRun_shown {g : BitVec 16} (nonzero : g ≠ 0#16) (text : List Char)
    (groups : List (BitVec 16)) :
    afterRun text (g :: groups) = (true, ⟨text ++ ':' :: colonGroups (g :: groups), 10⟩) := by
  rw [afterRun, List.dropWhile_cons_of_neg (by simpa using nonzero)]

theorem insertGroups_run {i : Nat} (zero : a.group host i = 0#16) (count : Nat)
    (text : List Char) :
    a.insertGroups host (i + 1) count false ⟨text, 10⟩ =
      afterRun text (groupsFrom host a (i + 1) count) := by
  induction count generalizing i with
  | zero => rfl
  | succ count ih =>
    rw [groupsFrom_succ]
    by_cases here : a.group host (i + 1) = 0#16
    · rw [insertGroups_skipped here, ih here, afterRun_zero here]
    · rw [insertGroups_shown fun both => here both.1, insertGroup_ended zero, insertGroups_used,
        afterRun_shown here, List.append_assoc]
      rfl

/-- In front of the first run of zeros every group is printed too. -/
theorem insertGroups_front {i : Nat} (nonzero : a.group host i ≠ 0#16) (count : Nat)
    (text : List Char) :
    a.insertGroups host (i + 1) count false ⟨text, 10⟩ =
      afterRun (text ++ colonGroups ((groupsFrom host a (i + 1) count).takeWhile (· ≠ 0#16)))
        ((groupsFrom host a (i + 1) count).dropWhile (· ≠ 0#16)) := by
  induction count generalizing i text with
  | zero =>
    simp only [groupsFrom, List.range'_zero, List.map_nil, List.takeWhile_nil, colonGroups,
      List.flatMap_nil, List.append_nil]
    rfl
  | succ count ih =>
    rw [groupsFrom_succ]
    by_cases here : a.group host (i + 1) = 0#16
    · rw [insertGroups_skipped here, insertGroups_run here,
        List.takeWhile_cons_of_neg (by simpa using here),
        List.dropWhile_cons_of_neg (by simpa using here), afterRun_zero here, colonGroups,
        List.flatMap_nil, List.append_nil]
    · rw [insertGroups_shown fun both => here both.1,
        insertGroup_succ fun both => nonzero both.1, ih here,
        List.takeWhile_cons_of_pos (by simpa using here),
        List.dropWhile_cons_of_pos (by simpa using here), List.append_assoc]
      rfl

/-- The whole loop. -/
theorem insertGroups_all (count : Nat) (text : List Char) :
    a.insertGroups host 0 count false ⟨text, 10⟩ =
      afterRun
        (text ++ joinGroups (((groupsFrom host a 0 count).takeWhile (· ≠ 0#16)).map hexText))
        ((groupsFrom host a 0 count).dropWhile (· ≠ 0#16)) := by
  cases count with
  | zero => exact congrArg (fun t => (false, OStream.mk t 10)) (List.append_nil text).symm
  | succ count =>
    rw [groupsFrom_succ]
    by_cases here : a.group host 0 = 0#16
    · rw [insertGroups_skipped here, insertGroups_run here,
        List.takeWhile_cons_of_neg (by simpa using here),
        List.dropWhile_cons_of_neg (by simpa using here), afterRun_zero here]
      exact congrArg (fun t => afterRun t _) (List.append_nil text).symm
    · rw [insertGroups_shown fun both => here both.1, insertGroup_first,
        insertGroups_front here, List.takeWhile_cons_of_pos (by simpa using here),
        List.dropWhile_cons_of_pos (by simpa using here), joinGroups_hexText, List.append_assoc]

/-! ### The text -/

theorem groupText_hexText (g : BitVec 16) : GroupText (hexText g) g where
  nonempty := Nat.toDigits_ne_nil
  short := (Nat.length_toDigits_le_iff (by decide) (by decide)).mpr g.isLt
  digits := (ofHex_toDigits g.toNat).2
  value := (ofHex_toDigits g.toNat).1

theorem groupText_map (groups : List (BitVec 16)) :
    List.Forall₂ GroupText (groups.map hexText) groups :=
  List.forall₂_map_left_iff.mpr (List.forall₂_same.mpr fun g _ => groupText_hexText g)

/-- The groups with their first run of zeros left out. -/
def groupsText (groups : List (BitVec 16)) : List Char :=
  match groups.dropWhile (· ≠ 0#16) with
  | [] => joinGroups (groups.map hexText)
  | fromRun =>
    joinGroups ((groups.takeWhile (· ≠ 0#16)).map hexText) ++ [':', ':'] ++
      joinGroups ((fromRun.dropWhile (· = 0#16)).map hexText)

/-- The groups around their first run of zeros, which is not empty. -/
theorem eq_around_run {groups : List (BitVec 16)} {z : BitVec 16} {run : List (BitVec 16)}
    (dropped : groups.dropWhile (· ≠ 0#16) = z :: run) :
    z = 0#16 ∧ ∃ zeros, 0 < zeros ∧
      groups = groups.takeWhile (· ≠ 0#16) ++ List.replicate zeros 0#16 ++
        (z :: run).dropWhile (· = 0#16) := by
  have zero : z = 0#16 := by
    have stops := List.head?_dropWhile_not (fun g : BitVec 16 => decide (g ≠ 0#16)) groups
    rw [dropped] at stops
    simpa using stops
  have all_zero : (z :: run).takeWhile (· = 0#16) =
      List.replicate ((z :: run).takeWhile (· = 0#16)).length 0#16 :=
    List.eq_replicate_iff.mpr ⟨rfl, fun g member => by
      simpa using List.all_eq_true.mp List.all_takeWhile g member⟩
  refine ⟨zero, ((z :: run).takeWhile (· = 0#16)).length, ?_, ?_⟩
  · rw [List.takeWhile_cons_of_pos (by simpa using zero)]
    exact Nat.succ_pos _
  · rw [← all_zero, List.append_assoc, List.takeWhile_append_dropWhile, ← dropped,
      List.takeWhile_append_dropWhile]

theorem groupsText_valid {groups : List (BitVec 16)} (eight : groups.length = 8) :
    ValidText (groupsText groups) groups := by
  rw [groupsText]
  cases dropped : groups.dropWhile (· ≠ 0#16) with
  | nil => exact .full (groupText_map groups) eight
  | cons z run =>
    obtain ⟨-, zeros, some_zeros, parts⟩ := eq_around_run dropped
    have valid := ValidText.compressed (groupText_map (groups.takeWhile (· ≠ 0#16)))
      (groupText_map ((z :: run).dropWhile (· = 0#16))) some_zeros (by
        have total := congrArg List.length parts
        rw [List.length_append, List.length_append, List.length_replicate, eight] at total
        exact total.symm)
    rwa [← parts] at valid

theorem last_group : (groupsFrom host a 0 8).getLast? = some (a.group host 7) := rfl

theorem groupsText_of_run {groups : List (BitVec 16)} {z : BitVec 16} {run : List (BitVec 16)}
    (dropped : groups.dropWhile (· ≠ 0#16) = z :: run) :
    groupsText groups =
      joinGroups ((groups.takeWhile (· ≠ 0#16)).map hexText) ++ [':', ':'] ++
        joinGroups (((z :: run).dropWhile (· = 0#16)).map hexText) := by
  rw [groupsText, dropped]

/-- Behind the loop a run of zeros at the end is still to be printed. -/
theorem inserted_text (text : List Char) :
    (if (a.insertGroups host 0 8 false ⟨text, 10⟩).1 = false ∧ a.addr host 7 = 0#16 then
      (a.insertGroups host 0 8 false ⟨text, 10⟩).2.puts "::"
    else (a.insertGroups host 0 8 false ⟨text, 10⟩).2) =
      ⟨text ++ groupsText (groupsFrom host a 0 8), 10⟩ := by
  rw [insertGroups_all]
  have last := @last_group host a
  cases dropped : (groupsFrom host a 0 8).dropWhile (· ≠ 0#16) with
  | nil =>
    have nonzero := List.dropWhile_eq_nil_iff.mp dropped
    have last_nonzero := nonzero _ (List.mem_of_getLast? last)
    rw [groupsText, dropped, List.takeWhile_eq_self_iff.mpr nonzero]
    exact if_neg fun both => of_decide_eq_true last_nonzero (addr_eq_zero_iff.mp both.2)
  | cons z run =>
    have parts := List.takeWhile_append_dropWhile (p := fun g => decide (g ≠ 0#16))
      (l := groupsFrom host a 0 8)
    rw [dropped] at parts
    rw [groupsText_of_run dropped, afterRun]
    cases shown : (z :: run).dropWhile (· = 0#16) with
    | nil =>
      have last_zero : a.group host 7 = 0#16 := by
        rw [← parts, List.getLast?_append_of_ne_nil _ (List.cons_ne_nil z run)] at last
        exact of_decide_eq_true
          (List.dropWhile_eq_nil_iff.mp shown _ (List.mem_of_getLast? last))
      refine (if_pos ⟨rfl, addr_eq_zero_iff.mpr last_zero⟩).trans ?_
      simp [OStream.puts, joinGroups]
    | cons g rest =>
      refine (if_neg fun both => Bool.noConfusion both.1).trans ?_
      rw [joinGroups_hexText]
      simp [colonGroups]

theorem toString_eq :
    a.toString host = '[' :: groupsText (groupsFrom host a 0 8) ++ [']', ':'] ++
      Nat.toDigits 10 (a.getPort host).toNat := by
  show OStream.text (((if (a.insertGroups host 0 8 false ⟨['['], 10⟩).1 = false ∧
      a.addr host 7 = 0#16 then (a.insertGroups host 0 8 false ⟨['['], 10⟩).2.puts "::"
    else (a.insertGroups host 0 8 false ⟨['['], 10⟩).2).puts "]:").putNumber
      (a.getPort host).toNat) = _
  rw [inserted_text]
  rfl

theorem storeGroups_groupsFrom : storeGroups (groupsFrom host a 0 8) = a.m_addr.s6_addr := by
  apply Vector.ext
  intro j below
  have stored : (groupsFrom host a 0 8).getD (j / 2) 0#16 = a.group host (j / 2) := by
    rw [groupsFrom, List.getD_eq_getElem?_getD, List.getElem?_map, List.getElem?_range' (by omega)]
    rw [Nat.zero_add, Nat.one_mul]
    rfl
  rw [storeGroups, Vector.getElem_ofFn]
  simp only [stored, group, addr, byteswap_load16]
  have byte : ∀ k, k = j → a.m_addr.s6_addr.getD k 0#8 = a.m_addr.s6_addr[j] := by
    rintro k rfl
    simp [Vector.getD, below]
  split
  case isTrue even =>
    rw [BitVec.extractLsb'_append_eq_of_le (by decide), byte _ (by omega)]
    exact BitVec.extractLsb'_eq_self
  case isFalse odd =>
    rw [BitVec.extractLsb'_append_eq_of_add_le (by decide), byte (2 * (j / 2) + 1) (by omega)]
    exact BitVec.extractLsb'_eq_self

/-- Reading what was printed. -/
theorem create_toString (port : BitVec 16) :
    ∃ text, a.toString host =
        '[' :: text ++ [']', ':'] ++ Nat.toDigits 10 (a.getPort host).toNat ∧
      (∃ groups, ValidText text groups) ∧ doubleColons text ≤ 1 ∧
      (inetPton6 text).map storeGroups = some a.m_addr.s6_addr ∧
      create host text port = some
        ⟨⟨AF_INET6, byteswapOnLittleEndian host port, 0#32, a.m_addr.s6_addr, 0#32⟩⟩ := by
  have valid := @groupsText_valid (groupsFrom host a 0 8) rfl
  have read := inetPton6_of_valid valid
  refine ⟨_, toString_eq, ⟨_, valid⟩, valid.doubleColons_le, ?_, ?_⟩
  · rw [read, Option.map_some, storeGroups_groupsFrom]
  · rw [create, read, Option.map_some, storeGroups_groupsFrom]

end IPv6Address

end Dwframe
