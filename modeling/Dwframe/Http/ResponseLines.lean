import Dwframe.Http.ResponseRegisters
import Dwframe.Http.RequestText

/-!
# Header lines in the response machine

A header line is read letter by letter along the names and values that the grammar knows; where it
ends, the state tells which of them it was.
-/
open Dwframe.Lib

namespace Dwframe.Http

/-! ### The texts -/

/-- A value that is read as it is printed. -/
structure ValueText (value : Bytes) : Prop where
  unbroken : ∀ b ∈ value, b ≠ 10 ∧ b ≠ 13
  solid : ∀ b ∈ value.head?, isSpace b = false

/-- A header that is read as it is printed. -/
structure FieldText (header : Bytes × Bytes) : Prop where
  named : header.1 ≠ []
  token : ∀ b ∈ header.1, isToken b
  value : ValueText header.2

/-- What `httpclient_parser` keeps about the end of the message. -/
structure Framing where
  close : Bool := false
  chunked : Bool := false
  contentLen : Int := -1
  deriving DecidableEq, Repr

/-- The names with a meaning, as the grammar spells them in any case. -/
inductive KnownName where
  | connection
  | transferEncoding
  | contentLength
  deriving DecidableEq, Repr

namespace KnownName

/-- The letters, as the proofs below compute with them. -/
def text : KnownName → Bytes
  | connection => [99, 111, 110, 110, 101, 99, 116, 105, 111, 110]
  | transferEncoding =>
    [116, 114, 97, 110, 115, 102, 101, 114, 45, 101, 110, 99, 111, 100, 105, 110, 103]
  | contentLength => [99, 111, 110, 116, 101, 110, 116, 45, 108, 101, 110, 103, 116, 104]

theorem text_eq : connection.text = bytes "connection" ∧
    transferEncoding.text = bytes "transfer-encoding" ∧
    contentLength.text = bytes "content-length" :=
  ⟨rfl, rfl, rfl⟩

def all : List KnownName := [connection, transferEncoding, contentLength]

/-- By the name in lower case. -/
def ofLower (w : Bytes) : Option KnownName := all.find? fun known => known.text == w

/-- The name of a header, in any case. -/
def of (name : Bytes) : Option KnownName := ofLower (name.map toLower)

end KnownName

/-- What a header line says about the end of the message. -/
def Framing.line (framing : Framing) (header : Bytes × Bytes) : Framing :=
  match KnownName.of header.1 with
  | some .connection =>
    if header.2.map toLower = bytes "close" then { framing with close := true } else framing
  | some .transferEncoding =>
    if header.2.map toLower = bytes "chunked" then { framing with chunked := true } else framing
  | some .contentLength =>
    match ofDecimal header.2 with
    | some n => { framing with contentLen := intOfLong (clampLong n) }
    | none => framing
  | none => framing

/-! ### States along a name -/

namespace ClientTable

/-- The state behind the colon. -/
def afterColon : Option KnownName → Nat
  | some .connection => 35
  | some .transferEncoding => 61
  | some .contentLength => 112
  | none => 22

end ClientTable

open ClientTable

namespace ClientTable

/-- `close` and `chunked`. -/
def closeText : Bytes := [99, 108, 111, 115, 101]

def chunkedText : Bytes := [99, 104, 117, 110, 107, 101, 100]

/-- The state inside a value along a word, by what was read of it in lower case. -/
def wordState (word : Bytes) (base : Nat) (w : Bytes) : Nat :=
  if w.isPrefixOf word then base + w.length else 23

/-- The state inside a value. -/
def valueState (known : Option KnownName) (w : Bytes) : Nat :=
  match known with
  | some .connection => wordState closeText 95 w
  | some .transferEncoding => wordState chunkedText 80 w
  | some .contentLength => if w.all isDigit then 119 else 23
  | none => 23

/-- Behind the carriage return. -/
def returnState (known : Option KnownName) (w : Bytes) : Nat :=
  match known with
  | some .connection => if w = closeText then 88 else 24
  | some .transferEncoding => if w = chunkedText then 71 else 24
  | _ => 24

/-- What the carriage return does. -/
def returnActions (known : Option KnownName) (w : Bytes) : List ClientAction :=
  match known with
  | some .contentLength =>
    if w.all isDigit then [.writeContentLen, .writeValue] else [.writeValue]
  | _ => [.writeValue]

/-- Behind the carriage return, where there is no value. -/
def emptyReturn : Option KnownName → Nat
  | some .connection => 95
  | some .transferEncoding => 80
  | some .contentLength => 118
  | none => 24

/-- The state behind a header line. -/
def lineState (known : Option KnownName) (w : Bytes) : Nat :=
  match known with
  | some .connection => if w = [] then 36 else if w = closeText then 43 else 20
  | some .transferEncoding => if w = [] then 62 else 20
  | some .contentLength => if w = [] then 113 else 20
  | none => 20

/-- What the line feed does. -/
def lineActions (known : Option KnownName) (w : Bytes) : List ClientAction :=
  match known with
  | some .transferEncoding => if w = chunkedText then [.transChunked] else []
  | _ => []

end ClientTable

/-- A byte that ends a line, by its number. -/
def breaks (n : Nat) : Bool := n == 10 || n == 13

theorem breaks_eq_false {b : UInt8} (unbroken : b ≠ 10 ∧ b ≠ 13) :
    breaks b.toNat = false := by
  rw [ne_eq, ne_eq, ← UInt8.toNat_inj, ← UInt8.toNat_inj] at unbroken
  simpa [breaks] using unbroken

/-- A letter in either case. -/
private def spelt (c : UInt8) (n : Nat) : Bool := n == c.toNat || n + 32 == c.toNat

private theorem spelt_toNat {c b : UInt8} (small : 97 ≤ c.toNat) (letter : c.toNat ≤ 122) :
    spelt c b.toNat = true ↔ toLower b = c := by
  have byte := b.toNat_lt
  rw [spelt, Bool.or_eq_true, beq_iff_eq, beq_iff_eq, ← UInt8.toNat_inj]
  unfold toLower
  split
  next upper =>
    rw [UInt8.le_iff_toNat_le, UInt8.le_iff_toNat_le] at upper
    simp only [UInt8.reduceToNat, UInt8.toNat_add] at upper ⊢
    omega
  next other =>
    rw [UInt8.le_iff_toNat_le, UInt8.le_iff_toNat_le] at other
    simp only [UInt8.reduceToNat] at other
    omega

/-- The next letter of a word goes on along it, and the other bytes leave it. -/
private def goesOn (cs : Nat) (special : Nat → Bool) (next : Option UInt8) (target : Nat)
    (actions : List ClientAction) : Bool :=
  match next with
  | none => leadsElse (ClientTable.row cs) special 23 actions
  | some c => leadsElse (ClientTable.row cs) (fun n => special n || spelt c n) 23 actions &&
    (decide (97 ≤ c.toNat) && decide (c.toNat ≤ 122)) &&
    [c.toNat, c.toNat - 32].all fun n => clientDelta cs (UInt8.ofNat n) == some (target, actions)

private theorem of_goesOn {cs target : Nat} {special : Nat → Bool} {next : Option UInt8}
    {actions : List ClientAction} (goes : goesOn cs special next target actions = true) {b : UInt8}
    (other : special b.toNat = false) : clientDelta cs b =
      some (if next = some (toLower b) then target else 23, actions) := by
  cases next with
  | none => exact of_leadsElse goes other
  | some c =>
    simp only [goesOn, Bool.and_eq_true, decide_eq_true_eq, List.all_cons, List.all_nil,
      Bool.and_true, beq_iff_eq] at goes
    obtain ⟨⟨leads, small, letter⟩, lower, upper⟩ := goes
    by_cases same : spelt c b.toNat = true
    · rw [if_pos (congrArg some ((spelt_toNat small letter).mp same).symm)]
      rw [spelt, Bool.or_eq_true, beq_iff_eq, beq_iff_eq] at same
      rcases same with same | same
      · rwa [← same, UInt8.ofNat_toNat] at lower
      · rwa [← same, Nat.add_sub_cancel, UInt8.ofNat_toNat] at upper
    · have differ : ¬some c = some (toLower b) := by
        rw [Option.some.injEq]
        exact fun equal => same ((spelt_toNat small letter).mpr equal.symm)
      rw [Bool.not_eq_true] at same
      rw [if_neg differ]
      exact of_leadsElse leads (by rw [other, same]; rfl)

/-- What stands in front of a value, or ends it. -/
private def precedes (n : Nat) : Bool := n == 32 || (Nat.ble 9 n && Nat.ble n 13)

/-- The rows along a word. -/
private theorem word_rows : ∀ known ∈ [(closeText, 95, 88), (chunkedText, 80, 71)],
    ∀ i < known.1.length,
      goesOn (known.2.1 + (i + 1)) breaks known.1[i + 1]? (known.2.1 + (i + 2)) [] = true ∧
      clientDelta (known.2.1 + (i + 1)) 13 =
        some (if i + 1 = known.1.length then known.2.2 else 24, [.writeValue]) := by
  decide +kernel

/-- The rows of the other values, and of the first bytes. -/
private theorem value_rows :
    (leadsElse (ClientTable.row 23) breaks 23 [] ∧
      leadsElse (ClientTable.row 119) (fun n => breaks n || isDigit (UInt8.ofNat n)) 23 [] ∧
      ∀ n < 10, clientDelta 119 (UInt8.ofNat (n + 48)) = some (119, [])) ∧
    (goesOn 35 precedes (some 99) 96 [.startValue] ∧
      goesOn 61 precedes (some 99) 81 [.startValue] ∧
      leadsElse (ClientTable.row 22) precedes 23 [.startValue] ∧
      leadsElse (ClientTable.row 112) (fun n => precedes n || isDigit (UInt8.ofNat n)) 23
        [.startValue] ∧
      ∀ n < 10, clientDelta 112 (UInt8.ofNat (n + 48)) = some (119, [.startValue])) ∧
    clientDelta 23 13 = some (24, [.writeValue]) ∧
      clientDelta 119 13 = some (24, [.writeContentLen, .writeValue]) ∧
      clientDelta 24 10 = some (20, []) ∧ clientDelta 88 10 = some (43, []) ∧
      clientDelta 71 10 = some (20, [.transChunked]) := by
  decide +kernel

theorem of_digit (holds : UInt8 → Prop) (all : ∀ n < 10, holds (UInt8.ofNat (n + 48)))
    {b : UInt8} (digit : isDigit b) : holds b := by
  rw [isDigit, Bool.and_eq_true, decide_eq_true_eq, decide_eq_true_eq, UInt8.le_iff_toNat_le,
    UInt8.le_iff_toNat_le] at digit
  simp only [UInt8.reduceToNat] at digit
  have value := all (b.toNat - 48) (by omega)
  rwa [Nat.sub_add_cancel digit.1, UInt8.ofNat_toNat] at value

theorem isDigit_toLower (b : UInt8) : isDigit (toLower b) = isDigit b := by
  rw [Bool.eq_iff_iff]
  simp only [isDigit, Bool.and_eq_true, decide_eq_true_eq, UInt8.le_iff_toNat_le,
    UInt8.reduceToNat]
  unfold toLower
  split
  next upper =>
    rw [UInt8.le_iff_toNat_le, UInt8.le_iff_toNat_le] at upper
    simp only [UInt8.reduceToNat, UInt8.toNat_add] at upper ⊢
    omega
  next => exact Iff.rfl

/-- One more letter along a word. -/
private theorem wordState_snoc (word : Bytes) (base : Nat) (w : Bytes) (c : UInt8)
    (isPrefix : w.isPrefixOf word) : wordState word base (w ++ [c]) =
      if word[w.length]? = some c then base + (w.length + 1) else 23 := by
  obtain ⟨rest, rfl⟩ := List.isPrefixOf_iff_prefix.mp isPrefix
  have same : (w ++ [c]).isPrefixOf (w ++ rest) = true ↔ (w ++ rest)[w.length]? = some c := by
    rw [List.isPrefixOf_iff_prefix, List.prefix_append_right_inj,
      List.getElem?_append_right (Nat.le_refl _), Nat.sub_self]
    cases rest with
    | nil => simp
    | cons d rest => simp [List.cons_prefix_cons, eq_comm]
  unfold wordState
  rw [List.length_append, List.length_singleton]
  exact if_congr same rfl rfl

private theorem wordState_step {word w : Bytes} {base : Nat} {b : UInt8}
    {target : Nat} (known : (word, base, target) ∈ [(closeText, 95, 88), (chunkedText, 80, 71)])
    (begun : w ≠ []) (unbroken : b ≠ 10 ∧ b ≠ 13) :
    clientDelta (wordState word base w) b = some (wordState word base (w ++ [toLower b]), []) := by
  by_cases isPrefix : w.isPrefixOf word
  · have positive := List.length_pos_of_ne_nil begun
    have within := (List.isPrefixOf_iff_prefix.mp isPrefix).length_le
    have goes := word_rows _ known (w.length - 1) (by dsimp only; omega)
    have moved := of_goesOn goes.1 (breaks_eq_false unbroken)
    rw [Nat.sub_add_cancel positive] at moved
    rw [wordState_snoc word base w _ isPrefix, wordState, if_pos isPrefix, moved,
      (by omega : w.length - 1 + 2 = w.length + 1)]
  · have leaves : ¬(w ++ [toLower b]).isPrefixOf word := by
      intro longer
      rw [List.isPrefixOf_iff_prefix] at isPrefix longer
      exact isPrefix ((List.prefix_append w _).trans longer)
    unfold wordState
    rw [if_neg isPrefix, if_neg leaves]
    exact of_leadsElse value_rows.1.1 (breaks_eq_false unbroken)

/-- A byte inside a value. -/
theorem value_step (known : Option KnownName) {w : Bytes} {b : UInt8} (begun : w ≠ [])
    (unbroken : b ≠ 10 ∧ b ≠ 13) :
    clientDelta (valueState known w) b = some (valueState known (w ++ [toLower b]), []) := by
  have stays : clientDelta 23 b = some (23, []) :=
    of_leadsElse value_rows.1.1 (breaks_eq_false unbroken)
  rcases known with _ | _ | _ | _
  · exact stays
  · exact wordState_step (by simp : (closeText, 95, 88) ∈ _) begun unbroken
  · exact wordState_step (by simp : (chunkedText, 80, 71) ∈ _) begun unbroken
  · unfold valueState
    dsimp only
    rw [List.all_append, List.all_cons, List.all_nil, Bool.and_true, isDigit_toLower]
    by_cases digits : w.all isDigit = true
    · rw [if_pos digits, digits, Bool.true_and]
      by_cases digit : isDigit b = true
      · rw [if_pos digit]
        exact of_digit (fun b => clientDelta 119 b = some (119, [])) value_rows.1.2.2 digit
      · rw [if_neg digit]
        refine of_leadsElse value_rows.1.2.1 ?_
        rw [Bool.not_eq_true] at digit
        rw [breaks_eq_false unbroken, UInt8.ofNat_toNat, digit]
        rfl
    · rw [Bool.not_eq_true] at digits
      rw [digits, Bool.false_and]
      exact stays

private theorem precedes_eq_false {b : UInt8} (solid : isSpace b = false) :
    precedes b.toNat = false := by
  rw [← solid, Bool.eq_iff_iff]
  simp [precedes, isSpace, UInt8.le_iff_toNat_le, ← UInt8.toNat_inj]

/-- The first byte of a value. -/
theorem opens_value (known : Option KnownName) {b : UInt8} (solid : isSpace b = false) :
    clientDelta (afterColon known) b = some (valueState known [toLower b], [.startValue]) := by
  have other := precedes_eq_false solid
  obtain ⟨connection, transferEncoding, plain, length, digits⟩ := value_rows.2.1
  rcases known with _ | _ | _ | _
  · exact of_leadsElse plain other
  · have begins := wordState_snoc closeText 95 [] (toLower b) rfl
    rw [List.nil_append] at begins
    rw [valueState, begins]
    exact of_goesOn connection other
  · have begins := wordState_snoc chunkedText 80 [] (toLower b) rfl
    rw [List.nil_append] at begins
    rw [valueState, begins]
    exact of_goesOn transferEncoding other
  · unfold valueState afterColon
    dsimp only
    rw [List.all_cons, List.all_nil, Bool.and_true, isDigit_toLower]
    by_cases digit : isDigit b = true
    · rw [if_pos digit]
      exact of_digit (fun b => clientDelta 112 b = some (119, [.startValue])) digits digit
    · rw [if_neg digit]
      refine of_leadsElse length ?_
      rw [Bool.not_eq_true] at digit
      rw [other, UInt8.ofNat_toNat, digit]
      rfl

/-- The blank in front of a value, and the end of an empty one. -/
theorem opens_blank (known : Option KnownName) :
    clientDelta (afterColon known) 32 = some (afterColon known, [.startValue]) ∧
      clientDelta (afterColon known) 13 = some (emptyReturn known, [.startValue, .writeValue]) ∧
      clientDelta (emptyReturn known) 10 = some (lineState known [], []) := by
  rcases known with _ | _ | _ | _ <;> decide +kernel

/-- The bytes of a value, from the second on. -/
theorem glides_value (known : Option KnownName) {rest : Bytes}
    (unbroken : ∀ b ∈ rest, b ≠ 10 ∧ b ≠ 13) (first : Bytes) (begun : first ≠ []) :
    Transducer.Glides clientDelta (valueState known (first.map toLower)) rest
      (valueState known ((first ++ rest).map toLower)) := by
  induction rest generalizing first with
  | nil =>
    rw [List.append_nil]
    exact .nil
  | cons b rest ih =>
    have moved := value_step known (w := first.map toLower) (by simpa using begun)
      (unbroken b List.mem_cons_self)
    have later := ih (fun c member => unbroken c (.tail _ member)) (first ++ [b]) (by simp)
    rw [List.append_assoc, List.map_append] at later
    exact .cons moved later

private theorem wordState_return {word w : Bytes} {base target : Nat}
    (known : (word, base, target) ∈ [(closeText, 95, 88), (chunkedText, 80, 71)]) (begun : w ≠ []) :
    clientDelta (wordState word base w) 13 =
      some (if w = word then target else 24, [.writeValue]) := by
  unfold wordState
  by_cases isPrefix : w.isPrefixOf word
  · have positive := List.length_pos_of_ne_nil begun
    have prefixed := List.isPrefixOf_iff_prefix.mp isPrefix
    have within := prefixed.length_le
    have moved := (word_rows _ known (w.length - 1) (by dsimp only; omega)).2
    dsimp only at moved
    rw [Nat.sub_add_cancel positive] at moved
    have same : w.length = word.length ↔ w = word :=
      ⟨fun length => prefixed.eq_of_length length, congrArg List.length⟩
    rw [if_pos isPrefix, moved]
    exact congrArg (fun cs => some (cs, [ClientAction.writeValue])) (if_congr same rfl rfl)
  · have differ : w ≠ word := by
      rintro rfl
      exact isPrefix (List.isPrefixOf_iff_prefix.mpr (List.prefix_refl w))
    rw [if_neg isPrefix, if_neg differ, value_rows.2.2.1]

/-- The carriage return behind a value. -/
theorem returns_value (known : Option KnownName) {w : Bytes} (begun : w ≠ []) :
    clientDelta (valueState known w) 13 = some (returnState known w, returnActions known w) := by
  rcases known with _ | _ | _ | _
  · exact value_rows.2.2.1
  · exact wordState_return (by simp) begun
  · exact wordState_return (by simp) begun
  · unfold valueState returnState returnActions
    dsimp only
    split
    next => exact value_rows.2.2.2.1
    next => exact value_rows.2.2.1

/-- The end of the line. -/
theorem ends_line (known : Option KnownName) {w : Bytes} (begun : w ≠ []) :
    clientDelta (returnState known w) 10 = some (lineState known w, lineActions known w) := by
  have ends := value_rows.2.2.2.2
  rcases known with _ | _ | _ | _
  · exact ends.1
  · unfold returnState lineState lineActions
    dsimp only
    rw [if_neg begun]
    split
    next => exact ends.2.1
    next => exact ends.1
  · unfold returnState lineState lineActions
    dsimp only
    rw [if_neg begun]
    split
    next => exact ends.2.2
    next => exact ends.1
  · unfold returnState lineState lineActions
    dsimp only
    rw [if_neg begun]
    exact ends.1

end Dwframe.Http
