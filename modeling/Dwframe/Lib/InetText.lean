import Mathlib.Data.List.Forall2

/-!
# The text of an IPv6 address

RFC 4291, section 2.2: eight groups of hexadecimal digits with colons between them, where one run
of zero groups may be written as `::`. `inetPton6` reads a text as `inet_pton` does, one character
after the other; `inetPton6_of_valid` says that it reads every valid text.
-/
namespace Dwframe.Lib

/-! ### Hexadecimal numbers -/

def hexValue (c : Char) : Option Nat :=
  if '0' ≤ c ∧ c ≤ '9' then some (c.toNat - '0'.toNat)
  else if 'a' ≤ c ∧ c ≤ 'f' then some (c.toNat - 'a'.toNat + 10)
  else if 'A' ≤ c ∧ c ≤ 'F' then some (c.toNat - 'A'.toNat + 10)
  else none

/-- The number that hexadecimal digits denote. -/
def ofHex (digits : List Char) : Nat :=
  digits.foldl (fun n c => 16 * n + (hexValue c).getD 0) 0

theorem hexValue_digitChar : ∀ d < 16, hexValue (Nat.digitChar d) = some d := by
  decide

theorem ofHex_append (digits : List Char) (c : Char) :
    ofHex (digits ++ [c]) = 16 * ofHex digits + (hexValue c).getD 0 := by
  rw [ofHex, List.foldl_append]
  rfl

theorem ofHex_toDigits (n : Nat) :
    ofHex (Nat.toDigits 16 n) = n ∧ ∀ c ∈ Nat.toDigits 16 n, (hexValue c).isSome := by
  induction n using Nat.strongRecOn with
  | _ n ih =>
    rw [Nat.toDigits_eq_if (by decide)]
    split
    case isTrue small =>
      constructor
      · rw [ofHex, List.foldl_cons, List.foldl_nil, hexValue_digitChar n small]
        simp
      · intro c member
        rw [List.mem_singleton.mp member, hexValue_digitChar n small]
        rfl
    case isFalse large =>
      obtain ⟨value, digits⟩ := ih (n / 16) (by omega)
      have last := hexValue_digitChar (n % 16) (Nat.mod_lt n (by decide))
      constructor
      · rw [ofHex_append, value, last, Option.getD_some]
        omega
      · intro c member
        rcases List.mem_append.mp member with front | back
        · exact digits c front
        · rw [List.mem_singleton.mp back, last]
          rfl

/-! ### Texts -/

/-- One to four hexadecimal digits with the value of the group. -/
structure GroupText (text : List Char) (group : BitVec 16) : Prop where
  nonempty : text ≠ []
  short : text.length ≤ 4
  digits : ∀ c ∈ text, (hexValue c).isSome
  value : ofHex text = group.toNat

/-- The texts with colons between them. -/
def joinGroups (texts : List (List Char)) : List Char := [':'].intercalate texts

/-- The forms `x:x:x:x:x:x:x:x` and, with one or more zero groups left out, `x:x::x`. -/
inductive ValidText : List Char → List (BitVec 16) → Prop
  | full {texts groups} : List.Forall₂ GroupText texts groups → groups.length = 8 →
      ValidText (joinGroups texts) groups
  | compressed {before left after right zeros} : List.Forall₂ GroupText before left →
      List.Forall₂ GroupText after right → 0 < zeros → left.length + zeros + right.length = 8 →
      ValidText (joinGroups before ++ [':', ':'] ++ joinGroups after)
        (left ++ List.replicate zeros 0#16 ++ right)

/-- How often two colons follow each other. -/
def doubleColons : List Char → Nat
  | [] => 0
  | c :: rest => (if c = ':' ∧ rest.head? = some ':' then 1 else 0) + doubleColons rest

/-! ### The reader -/

/-- A decimal number up to 255 without leading zeros. -/
def octet (text : List Char) : Option (BitVec 8) :=
  if text ≠ [] ∧ text.all Char.isDigit ∧ (text.head? = some '0' → text.length = 1) ∧
      Nat.ofDigitChars 10 text 0 ≤ 255 then
    some (BitVec.ofNat 8 (Nat.ofDigitChars 10 text 0))
  else none

/-- The two groups of an IPv4 address at the end of the text. -/
def dottedQuad (text : List Char) : Option (List (BitVec 16)) :=
  match (text.splitOn '.').map octet with
  | [some a, some b, some c, some d] => some [a ++ b, c ++ d]
  | _ => none

/-- The groups read so far, the position of `::` among them, and the digits since the last
colon. -/
structure Scan where
  groups : List (BitVec 16)
  gap : Option Nat
  token : List Char

namespace Scan

/-- The digits become a group; there is room for eight. -/
def store (s : Scan) : Option Scan :=
  if s.groups.length < 8 then
    some { s with groups := s.groups ++ [BitVec.ofNat 16 (ofHex s.token)], token := [] }
  else none

def read (s : Scan) : List Char → Option Scan
  | [] => some s
  | c :: rest =>
    if (hexValue c).isSome then
      if s.token.length = 4 then none else read { s with token := s.token ++ [c] } rest
    else if c = ':' then
      if s.token = [] then
        if s.gap.isSome then none else read { s with gap := some s.groups.length } rest
      else if rest = [] then none
      else
        match s.store with
        | none => none
        | some stored => read stored rest
    else if c = '.' ∧ s.groups.length ≤ 6 then
      (dottedQuad (s.token ++ c :: rest)).map fun quad =>
        { s with groups := s.groups ++ quad, token := [] }
    else none

/-- The gap is filled with zeros to eight groups. -/
def finish (s : Scan) : Option (List (BitVec 16)) := do
  let stored ← if s.token = [] then some s else s.store
  match stored.gap with
  | none => if stored.groups.length = 8 then some stored.groups else none
  | some gap =>
    if stored.groups.length = 8 then none
    else
      some (stored.groups.take gap ++ List.replicate (8 - stored.groups.length) 0#16 ++
        stored.groups.drop gap)

end Scan

/-- `inet_pton` for `AF_INET6`, in groups of two bytes. -/
def inetPton6 (text : List Char) : Option (List (BitVec 16)) :=
  match text with
  | [] => none
  | ':' :: rest =>
    if rest.head? = some ':' then (Scan.read ⟨[], none, []⟩ rest).bind Scan.finish else none
  | text => (Scan.read ⟨[], none, []⟩ text).bind Scan.finish

/-! ### Joined texts -/

theorem GroupText.exists_cons {text : List Char} {group : BitVec 16}
    (written : GroupText text group) : ∃ c rest, text = c :: rest ∧ (hexValue c).isSome := by
  obtain ⟨c, rest, rfl⟩ := List.exists_cons_of_ne_nil written.nonempty
  exact ⟨c, rest, rfl, written.digits c List.mem_cons_self⟩

theorem joinGroups_cons (text : List Char) {texts : List (List Char)} (more : texts ≠ []) :
    joinGroups (text :: texts) = text ++ ':' :: joinGroups texts := by
  obtain ⟨next, rest, rfl⟩ := List.exists_cons_of_ne_nil more
  rw [joinGroups, List.intercalate_cons_cons, List.append_assoc]
  rfl

theorem joinGroups_singleton (text : List Char) : joinGroups [text] = text :=
  List.intercalate_singleton

theorem texts_ne_nil {texts : List (List Char)} {groups : List (BitVec 16)}
    (written : List.Forall₂ GroupText texts groups) : texts ≠ [] ↔ groups ≠ [] := by
  cases written <;> simp

theorem joinGroups_exists_cons {texts : List (List Char)} {groups : List (BitVec 16)}
    (written : List.Forall₂ GroupText texts groups) (some_group : groups ≠ []) :
    ∃ c rest, joinGroups texts = c :: rest ∧ (hexValue c).isSome := by
  cases written with
  | nil => exact absurd rfl some_group
  | @cons text _ texts _ first others =>
    obtain ⟨c, rest, rfl, digit⟩ := first.exists_cons
    by_cases last : texts = []
    · rw [last, joinGroups_singleton]
      exact ⟨c, rest, rfl, digit⟩
    · rw [joinGroups_cons _ last]
      exact ⟨c, _, rfl, digit⟩

theorem colon_no_digit : hexValue ':' = none := rfl

theorem ne_colon {c : Char} (digit : (hexValue c).isSome) : c ≠ ':' := by
  rintro rfl
  rw [colon_no_digit] at digit
  cases digit

/-! ### Double colons -/

theorem doubleColons_digits {digits : List Char} (hex : ∀ c ∈ digits, (hexValue c).isSome)
    (rest : List Char) : doubleColons (digits ++ rest) = doubleColons rest := by
  induction digits with
  | nil => rfl
  | cons c digits ih =>
    have not_colon := ne_colon (hex c List.mem_cons_self)
    rw [List.cons_append, doubleColons, if_neg fun both => not_colon both.1, Nat.zero_add]
    exact ih fun d member => hex d (.tail _ member)

/-- No two colons follow each other in front of the rest. -/
theorem doubleColons_joinGroups {texts : List (List Char)} {groups : List (BitVec 16)}
    (written : List.Forall₂ GroupText texts groups) (rest : List Char) :
    doubleColons (joinGroups texts ++ rest) = doubleColons rest := by
  induction written with
  | nil => rfl
  | @cons text group texts groups first others ih =>
    by_cases last : texts = []
    · rw [last, joinGroups_singleton, doubleColons_digits first.digits]
    · obtain ⟨c, tail, next, digit⟩ := joinGroups_exists_cons others ((texts_ne_nil others).mp last)
      rw [joinGroups_cons _ last, List.append_assoc, doubleColons_digits first.digits,
        List.cons_append, doubleColons, ih, if_neg, Nat.zero_add]
      rw [next]
      rintro ⟨-, colon⟩
      exact ne_colon digit (Option.some.inj colon)

theorem ValidText.doubleColons_le {text : List Char} {groups : List (BitVec 16)}
    (valid : ValidText text groups) : doubleColons text ≤ 1 := by
  cases valid with
  | @full texts groups written _ =>
    rw [← List.append_nil (joinGroups texts), doubleColons_joinGroups written]
    exact Nat.zero_le 1
  | @compressed before left after right zeros front back _ _ =>
    rw [List.append_assoc, doubleColons_joinGroups front]
    have none_after : doubleColons (joinGroups after) = 0 := by
      rw [← List.append_nil (joinGroups after), doubleColons_joinGroups back]
      rfl
    have no_third : (joinGroups after).head? ≠ some ':' := by
      intro colon
      by_cases empty : right = []
      · subst empty
        cases back
        cases colon
      · obtain ⟨c, tail, next, digit⟩ := joinGroups_exists_cons back empty
        rw [next] at colon
        exact ne_colon digit (Option.some.inj colon)
    simp [doubleColons, none_after, no_third]

/-! ### Reading back -/

namespace Scan

variable {groups : List (BitVec 16)} {gap : Option Nat}

theorem read_digits {digits : List Char} (hex : ∀ c ∈ digits, (hexValue c).isSome) {s : Scan}
    (room : s.token.length + digits.length ≤ 4) (rest : List Char) :
    s.read (digits ++ rest) = Scan.read { s with token := s.token ++ digits } rest := by
  induction digits generalizing s with
  | nil => rw [List.append_nil, List.nil_append]
  | cons c digits ih =>
    rw [List.length_cons] at room
    rw [List.cons_append, read, if_pos (hex c List.mem_cons_self), if_neg (by omega),
      ih (fun d member => hex d (.tail _ member))
        (by rw [List.length_append, List.length_singleton]; omega),
      List.append_assoc]
    rfl

theorem read_group {text : List Char} {group : BitVec 16} (written : GroupText text group)
    (rest : List Char) : read ⟨groups, gap, []⟩ (text ++ rest) = read ⟨groups, gap, text⟩ rest :=
  read_digits written.digits (by simpa using written.short) rest

theorem store_group {text : List Char} {group : BitVec 16} (written : GroupText text group)
    (room : groups.length < 8) :
    store ⟨groups, gap, text⟩ = some ⟨groups ++ [group], gap, []⟩ := by
  rw [store, if_pos room, written.value, BitVec.ofNat_toNat, BitVec.setWidth_eq]

/-- A group and the colon behind it. -/
theorem read_next {text : List Char} {group : BitVec 16} (written : GroupText text group)
    (room : groups.length < 8) {rest : List Char} (more : rest ≠ []) :
    read ⟨groups, gap, []⟩ (text ++ ':' :: rest) = read ⟨groups ++ [group], gap, []⟩ rest := by
  rw [read_group written, read, if_neg (by rw [colon_no_digit]; decide), if_pos rfl,
    if_neg written.nonempty, if_neg more, store_group written room]

theorem read_second_colon (rest : List Char) :
    read ⟨groups, none, []⟩ (':' :: rest) = read ⟨groups, some groups.length, []⟩ rest := by
  rw [read, if_neg (by rw [colon_no_digit]; decide), if_pos rfl, if_pos rfl]
  rfl

theorem read_front {texts : List (List Char)} {front : List (BitVec 16)}
    (written : List.Forall₂ GroupText texts front) (some_group : front ≠ [])
    (room : groups.length + front.length ≤ 8) {rest : List Char} (more : rest ≠ []) :
    read ⟨groups, gap, []⟩ (joinGroups texts ++ ':' :: rest) =
      read ⟨groups ++ front, gap, []⟩ rest := by
  induction written generalizing groups with
  | nil => exact absurd rfl some_group
  | @cons text group texts front first others ih =>
    rw [List.length_cons] at room
    by_cases last : texts = []
    · subst last
      cases others
      rw [joinGroups_singleton, read_next first (by omega) more]
    · have others_too := (texts_ne_nil others).mp last
      rw [joinGroups_cons _ last, List.append_assoc, List.cons_append,
        read_next first (by omega) (by simp),
        ih others_too (by rw [List.length_append, List.length_singleton]; omega),
        List.append_assoc]
      rfl

/-- The groups behind the last double colon, to the end of the text. -/
theorem read_back {texts : List (List Char)} {back : List (BitVec 16)}
    (written : List.Forall₂ GroupText texts back) (room : groups.length + back.length ≤ 8) :
    (read ⟨groups, gap, []⟩ (joinGroups texts)).bind finish =
      finish ⟨groups ++ back, gap, []⟩ := by
  induction written generalizing groups with
  | nil => rw [List.append_nil]; rfl
  | @cons text group texts back first others ih =>
    rw [List.length_cons] at room
    by_cases last : texts = []
    · subst last
      cases others
      have group_read := @read_group groups gap text group first []
      rw [List.append_nil] at group_read
      rw [joinGroups_singleton, group_read, read, Option.bind_some, finish,
        if_neg first.nonempty, store_group first (by omega)]
      rfl
    · obtain ⟨c, rest, next, -⟩ := joinGroups_exists_cons others ((texts_ne_nil others).mp last)
      rw [joinGroups_cons _ last, read_next first (by omega) (by rw [next]; simp),
        ih (by rw [List.length_append, List.length_singleton]; omega), List.append_assoc]
      rfl

end Scan

theorem inetPton6_of_digit {c : Char} (digit : (hexValue c).isSome) (rest : List Char) :
    inetPton6 (c :: rest) = (Scan.read ⟨[], none, []⟩ (c :: rest)).bind Scan.finish := by
  unfold inetPton6
  split
  next empty => cases empty
  next same =>
    cases same
    exact absurd rfl (ne_colon digit)
  next => rfl

/-- Every valid text is read as the groups that it denotes. -/
theorem inetPton6_of_valid {text : List Char} {groups : List (BitVec 16)}
    (valid : ValidText text groups) : inetPton6 text = some groups := by
  cases valid with
  | @full texts groups written eight =>
    obtain ⟨c, rest, starts, digit⟩ :=
      joinGroups_exists_cons written (by rintro rfl; cases eight)
    rw [starts, inetPton6_of_digit digit, ← starts, Scan.read_back written (by simp [eight]),
      List.nil_append, Scan.finish, if_pos rfl]
    exact if_pos eight
  | @compressed before left after right zeros front back some_zeros eight =>
    have filled : Scan.finish ⟨left ++ right, some left.length, []⟩ =
        some (left ++ List.replicate zeros 0#16 ++ right) := by
      have missing : 8 - (left ++ right).length = zeros := by
        rw [List.length_append]
        omega
      have not_full : (left ++ right).length ≠ 8 := by
        rw [List.length_append]
        omega
      rw [Scan.finish, if_pos rfl, Option.bind_eq_bind, Option.bind_some]
      show (if (left ++ right).length = 8 then none else _) = _
      rw [if_neg not_full, missing, List.take_left, List.drop_left]
    have room : left.length + right.length ≤ 8 := by omega
    by_cases none_before : left = []
    · subst none_before
      cases front
      show (Scan.read ⟨[], none, []⟩ (':' :: joinGroups after)).bind Scan.finish = _
      rw [Scan.read_second_colon, Scan.read_back back (by simpa using room)]
      exact filled
    · obtain ⟨c, rest, starts, digit⟩ := joinGroups_exists_cons front none_before
      have scanned := inetPton6_of_digit digit (rest ++ [':', ':'] ++ joinGroups after)
      rw [← List.cons_append, ← List.cons_append, ← starts] at scanned
      rw [scanned, List.append_assoc, List.cons_append,
        Scan.read_front front none_before (by simp; omega) (by simp), List.nil_append,
        List.cons_append, List.nil_append, Scan.read_second_colon, Scan.read_back back room]
      exact filled

end Dwframe.Lib
