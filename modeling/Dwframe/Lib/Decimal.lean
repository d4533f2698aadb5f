import Mathlib.Data.List.Basic

/-!
# Decimal numbers in ASCII

The text of a natural number, and the number that a text of digits denotes. A number may be
written with leading zeros; a sign or a blank is not part of one.
-/
namespace Dwframe.Lib

def isDigit (b : UInt8) : Bool := decide (48 ≤ b) && decide (b ≤ 57)

/-- The number denoted by a text of one or more digits. -/
def ofDecimal (text : List UInt8) : Option Nat :=
  if text ≠ [] ∧ text.all isDigit then
    some (text.foldl (fun n b => 10 * n + (b.toNat - 48)) 0)
  else none

/-- The digits of a number, without leading zeros. -/
def toDecimal (n : Nat) : List UInt8 := (Nat.toDigits 10 n).map fun c => UInt8.ofNat c.toNat

theorem ofDecimal_eq_some {text : List UInt8} {n : Nat} (denotes : ofDecimal text = some n) :
    text ≠ [] ∧ ∀ b ∈ text, isDigit b := by
  unfold ofDecimal at denotes
  split at denotes
  next digits => exact ⟨digits.1, List.all_eq_true.mp digits.2⟩
  next => cases denotes

/-- The byte of a digit, and its value. -/
private theorem ofNat_toNat_of_isDigit {c : Char} (digit : c.isDigit) :
    isDigit (UInt8.ofNat c.toNat) ∧ (UInt8.ofNat c.toNat).toNat = c.toNat := by
  have range : 48 ≤ c.toNat ∧ c.toNat ≤ 57 := by
    simpa [Char.isDigit, UInt32.le_iff_toNat_le] using digit
  have value : (UInt8.ofNat c.toNat).toNat = c.toNat := by
    rw [UInt8.toNat_ofNat']
    omega
  constructor
  · simp only [isDigit, Bool.and_eq_true, decide_eq_true_eq, UInt8.le_iff_toNat_le, value]
    exact range
  · exact value

theorem isDigit_of_mem_toDecimal {n : Nat} : ∀ b ∈ toDecimal n, isDigit b := by
  intro b member
  obtain ⟨c, digit, rfl⟩ := List.mem_map.mp member
  exact (ofNat_toNat_of_isDigit (Nat.isDigit_of_mem_toDigits (by omega) (by omega) digit)).1

theorem toDecimal_ne_nil (n : Nat) : toDecimal n ≠ [] := by
  simp [toDecimal, Nat.toDigits_ne_nil]

private theorem foldl_digits {cs : List Char} (digits : ∀ c ∈ cs, c.isDigit) : ∀ n : Nat,
    (cs.map fun c => UInt8.ofNat c.toNat).foldl (fun n b => 10 * n + (b.toNat - 48)) n =
      Nat.ofDigitChars 10 cs n := by
  induction cs with
  | nil => simp
  | cons c cs ih =>
    intro n
    rw [List.map_cons, List.foldl_cons, ih fun d member => digits d (.tail _ member),
      Nat.ofDigitChars_cons, (ofNat_toNat_of_isDigit (digits c List.mem_cons_self)).2]
    rfl

theorem ofDecimal_toDecimal (n : Nat) : ofDecimal (toDecimal n) = some n := by
  have digits : ∀ c ∈ Nat.toDigits 10 n, c.isDigit := fun c member =>
    Nat.isDigit_of_mem_toDigits (by omega) (by omega) member
  have all : (toDecimal n).all isDigit = true :=
    List.all_eq_true.mpr isDigit_of_mem_toDecimal
  rw [ofDecimal, if_pos ⟨toDecimal_ne_nil n, all⟩, toDecimal, foldl_digits digits,
    Nat.ofDigitChars_toDigits (by omega) (by omega)]

end Dwframe.Lib
