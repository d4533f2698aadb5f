import Dwframe.Address.IPv6

/-!
# The parts of a host name

`Lookup` splits a host into the two texts that `getaddrinfo` is called with. It searches the buffer
of the string with `memchr`; a pointer into the buffer is its offset.
-/
namespace Dwframe

/-- The first `c` in `count` characters of the buffer from `start` on. -/
def memchr (buffer : List Char) (start : Nat) (c : Char) (count : Nat) : Option Nat :=
  (((buffer.drop start).take count).findIdx? (· = c)).map (start + ·)

/-- A character of the buffer; a zero character ends it. -/
def charAt (buffer : List Char) (i : Nat) : Char := buffer.getD i '\x00'

/-- What is read of a buffer, up to the zero character. -/
def cString (buffer : List Char) : List Char := buffer.takeWhile (· ≠ '\x00')

/-- The node, and the pointer to the service if it is not null. -/
structure HostParts where
  node : List Char
  service : Option Nat
  deriving DecidableEq

namespace HostParts

/-- `[address]`, or `[address]:service`. -/
def bracketed (host : List Char) : HostParts :=
  if host.head? = some '[' then
    match memchr host 1 ']' (host.length - 1) with
    | some endipv6 =>
      ⟨(host.drop 1).take (endipv6 - 1),
        if charAt host (endipv6 + 1) = ':' then some (endipv6 + 2) else none⟩
    | none => ⟨[], none⟩
  else ⟨[], none⟩

/-- `node:service`. -/
def separated (host : List Char) : HostParts :=
  match memchr host 0 ':' host.length with
  | none => ⟨[], none⟩
  | some service =>
    match memchr host (service + 1) ':' (host.length - service - 1) with
    | none => ⟨host.take service, some (service + 1)⟩
    | some _ => ⟨[], some service⟩

def split (host : List Char) : HostParts :=
  let parts := if (bracketed host).node = [] then separated host else bracketed host
  if parts.node = [] then { parts with node := host } else parts

/-- The node and what the pointer to the service points to. -/
def texts (host : List Char) : List Char × Option (List Char) :=
  ((split host).node, (split host).service.map host.drop)

end HostParts

/-! ### The addresses of a host -/

inductive Sockaddr where
  | inet (a : SockaddrIn)
  | inet6 (a : SockaddrIn6)
  | other (sa_family : BitVec 16)
  deriving DecidableEq

inductive Address where
  | ipv4 (a : IPv4Address)
  | ipv6 (a : IPv6Address)
  | unknow (sa_family : BitVec 16)
  deriving DecidableEq

namespace Address

def create : Sockaddr → Address
  | .inet a => .ipv4 ⟨a⟩
  | .inet6 a => .ipv6 ⟨a⟩
  | .other sa_family => .unknow sa_family

/-- The fields of the hints that are not zero. -/
structure Hints where
  ai_family : Int
  ai_socktype : Int
  ai_protocol : Int

/-- `getaddrinfo` gives the list of its results, or an error. -/
abbrev Getaddrinfo := List Char → Option (List Char) → Hints → Option (List Sockaddr)

def lookup (getaddrinfo : Getaddrinfo) (result : List Address) (host : List Char)
    (family type protocol : Int) : Bool × List Address :=
  let parts := HostParts.split host
  match getaddrinfo (cString parts.node) (parts.service.map fun p => cString (host.drop p))
      ⟨family, type, protocol⟩ with
  | none => (false, result)
  | some results =>
    let result := result ++ results.map create
    (!result.isEmpty, result)

end Address

namespace HostParts

/-- How a host is to be split. -/
structure Splits (host : List Char) (parts : List Char × Option (List Char)) : Prop where
  bracketed_service : ∀ n s, n ≠ [] → ']' ∉ n → host = '[' :: n ++ ']' :: ':' :: s →
    parts = (n, some s)
  bracketed_alone : ∀ n, n ≠ [] → ']' ∉ n → host = '[' :: n ++ [']'] → parts = (n, none)
  service : ∀ n s, n ≠ [] → s ≠ [] → ':' ∉ n → ':' ∉ s → n.head? ≠ some '[' →
    host = n ++ ':' :: s → parts = (n, some s)
  alone : ':' ∉ host → host.head? ≠ some '[' → parts = (host, none)
  literal : host.head? ≠ some '[' → 2 ≤ host.count ':' → parts = (host, none)

/-! ### Searching -/

theorem memchr_absent {buffer : List Char} {start count : Nat} {c : Char}
    (absent : c ∉ (buffer.drop start).take count) : memchr buffer start c count = none := by
  rw [memchr, Option.map_eq_none_iff, List.findIdx?_eq_none_iff]
  intro d member
  exact decide_eq_false fun same => absent (same ▸ member)

theorem memchr_found {buffer skipped after : List Char} {start count : Nat} {c : Char}
    (found : (buffer.drop start).take count = skipped ++ c :: after) (first : c ∉ skipped) :
    memchr buffer start c count = some (start + skipped.length) := by
  have passed : skipped.findIdx? (· = c) = none :=
    List.findIdx?_eq_none_iff.mpr fun d member => decide_eq_false fun same => first (same ▸ member)
  rw [memchr, found, List.findIdx?_append, passed, List.findIdx?_cons, if_pos (decide_eq_true rfl)]
  simp

/-! ### Hosts with brackets -/

variable {host n s : List Char}

theorem bracketed_eq (no_end : ']' ∉ n) (rest : List Char) :
    bracketed ('[' :: n ++ ']' :: rest) =
      ⟨n, if charAt rest 0 = ':' then some (n.length + 3) else none⟩ := by
  have found := @memchr_found ('[' :: n ++ ']' :: rest) n rest 1 (n.length + rest.length + 1) ']'
    (by
      show (n ++ ']' :: rest).take _ = _
      exact List.take_of_length_le (by rw [List.length_append, List.length_cons]; omega)) no_end
  have count : ('[' :: n ++ ']' :: rest).length - 1 = n.length + rest.length + 1 := by
    rw [List.length_append, List.length_cons, List.length_cons]
    omega
  have node : (('[' :: n ++ ']' :: rest).drop 1).take (1 + n.length - 1) = n := by
    rw [Nat.add_sub_cancel_left]
    exact List.take_left
  have next : charAt ('[' :: n ++ ']' :: rest) (1 + n.length + 1) = charAt rest 0 := by
    rw [charAt, charAt, List.getD_eq_getElem?_getD, List.getD_eq_getElem?_getD,
      show 1 + n.length + 1 = n.length + 1 + 1 by omega, List.cons_append, List.getElem?_cons_succ,
      List.getElem?_append_right (by omega), Nat.add_sub_cancel_left, List.getElem?_cons_succ]
  have starts : ('[' :: n ++ ']' :: rest).head? = some '[' := rfl
  rw [bracketed, if_pos starts, count, found]
  simp only [node, next, show 1 + n.length + 2 = n.length + 3 by omega]

theorem split_bracketed {parts : HostParts} (bracket : bracketed host = parts)
    (some_node : parts.node ≠ []) : split host = parts := by
  rw [split, bracket, if_neg some_node]
  exact if_neg some_node

theorem bracketed_none (unbracketed : host.head? ≠ some '[') : bracketed host = ⟨[], none⟩ :=
  if_neg unbracketed

/-! ### Hosts without brackets -/

theorem separated_absent (absent : ':' ∉ host) : separated host = ⟨[], none⟩ := by
  rw [separated, memchr_absent (by simpa using absent)]

theorem memchr_colon (absent : ':' ∉ n) (s : List Char) :
    memchr (n ++ ':' :: s) 0 ':' (n ++ ':' :: s).length = some n.length := by
  rw [memchr_found (by rw [List.drop_zero, List.take_length]) absent, Nat.zero_add]

/-- What is behind the first colon. -/
theorem after_colon (n s : List Char) :
    ((n ++ ':' :: s).drop (n.length + 1)).take ((n ++ ':' :: s).length - n.length - 1) = s := by
  rw [List.append_cons, show n.length + 1 = (n ++ [':']).length by simp, List.drop_left]
  exact List.take_of_length_le (by simp)

theorem separated_once (absent : ':' ∉ n) (absent' : ':' ∉ s) :
    separated (n ++ ':' :: s) = ⟨n, some (n.length + 1)⟩ := by
  rw [separated, memchr_colon absent]
  simp only
  rw [memchr_absent (by rwa [after_colon]), List.take_left]

theorem separated_twice (absent : ':' ∉ n) (more : ':' ∈ s) :
    separated (n ++ ':' :: s) = ⟨[], some n.length⟩ := by
  obtain ⟨skipped, after, rfl, first⟩ := List.eq_append_cons_of_mem more
  rw [separated, memchr_colon absent]
  simp only
  rw [memchr_found (after_colon n _) first]

/-- The pointer to the service stays at the first colon when there is a second. -/
theorem texts_literal (unbracketed : host.head? ≠ some '[') (twice : 2 ≤ host.count ':') :
    ∃ service, texts host = (host, some service) := by
  obtain ⟨n, s, rfl, first⟩ := List.eq_append_cons_of_mem
    (List.count_pos_iff.mp (show 0 < host.count ':' by omega))
  have more : ':' ∈ s := by
    rw [List.count_append, List.count_eq_zero_of_not_mem first, List.count_cons_self] at twice
    exact List.count_pos_iff.mp (by omega)
  refine ⟨(n ++ ':' :: s).drop n.length, ?_⟩
  rw [texts, split, bracketed_none unbracketed, if_pos rfl, separated_twice first more]
  rfl

theorem split_separated {n : List Char} {service : Option Nat} (some_node : n ≠ [])
    (unbracketed : host.head? ≠ some '[') (apart : separated host = ⟨n, service⟩) :
    split host = ⟨n, service⟩ := by
  rw [split, bracketed_none unbracketed, if_pos rfl, apart]
  exact if_neg some_node

/-- Only a host with two colons and no bracket is split wrongly. -/
theorem splits_texts_iff (host : List Char) :
    Splits host (texts host) ↔ host.head? = some '[' ∨ host.count ':' < 2 := by
  constructor
  · intro right
    by_contra! wrong
    obtain ⟨service, pointer⟩ := texts_literal wrong.1 wrong.2
    have nothing := congrArg Prod.snd (pointer.symm.trans (right.literal wrong.1 wrong.2))
    cases nothing
  · intro fine
    constructor
    case bracketed_service =>
      rintro n s some_node no_end rfl
      have behind : ('[' :: n ++ ']' :: ':' :: s).drop (n.length + 3) = s := by
        rw [show n.length + 3 = ('[' :: n ++ [']', ':']).length by simp,
          show '[' :: n ++ ']' :: ':' :: s = ('[' :: n ++ [']', ':']) ++ s by simp, List.drop_left]
      rw [texts, split_bracketed (bracketed_eq no_end _) some_node]
      show (n, some (('[' :: n ++ ']' :: ':' :: s).drop (n.length + 3))) = _
      rw [behind]
    case bracketed_alone =>
      rintro n some_node no_end rfl
      rw [texts, split_bracketed (bracketed_eq no_end _) some_node]
      rfl
    case service =>
      rintro n s some_node - absent absent' unbracketed rfl
      have starts : (n ++ ':' :: s).head? ≠ some '[' := by
        rwa [List.head?_append_of_ne_nil _ some_node]
      have behind : (n ++ ':' :: s).drop (n.length + 1) = s := by
        rw [List.append_cons, show n.length + 1 = (n ++ [':']).length by simp, List.drop_left]
      rw [texts, split_separated some_node starts (separated_once absent absent')]
      show (n, some ((n ++ ':' :: s).drop (n.length + 1))) = _
      rw [behind]
    case alone =>
      intro absent unbracketed
      rw [texts, split, bracketed_none unbracketed, if_pos rfl, separated_absent absent]
      rfl
    case literal =>
      intro unbracketed twice
      rcases fine with bracket | once
      · exact absurd bracket unbracketed
      · omega

/-- `getaddrinfo` reads the two texts. -/
theorem lookup_texts (getaddrinfo : Address.Getaddrinfo) (result : List Address) (host : List Char)
    (family type protocol : Int) :
    Address.lookup getaddrinfo result host family type protocol =
      match getaddrinfo (cString (texts host).1) ((texts host).2.map cString)
        ⟨family, type, protocol⟩ with
      | none => (false, result)
      | some results =>
        (!(result ++ results.map Address.create).isEmpty,
          result ++ results.map Address.create) := by
  rw [Address.lookup, texts, Option.map_map]
  rfl

/-- `fe80::1` is looked up with the service `::1`. -/
theorem texts_of_literal :
    texts ['f', 'e', '8', '0', ':', ':', '1'] =
      (['f', 'e', '8', '0', ':', ':', '1'], some [':', ':', '1']) ∧
    ¬Splits ['f', 'e', '8', '0', ':', ':', '1'] (texts ['f', 'e', '8', '0', ':', ':', '1']) := by
  have called : texts ['f', 'e', '8', '0', ':', ':', '1'] =
      (['f', 'e', '8', '0', ':', ':', '1'], some [':', ':', '1']) := rfl
  refine ⟨called, fun right => ?_⟩
  have nothing := right.literal (by decide) (by decide)
  rw [called] at nothing
  cases nothing

end HostParts

end Dwframe
