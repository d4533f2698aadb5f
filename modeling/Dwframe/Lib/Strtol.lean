import Mathlib.Algebra.GroupWithZero.Nat
import Mathlib.Algebra.Group.Int.Defs
import Dwframe.Lib.Decimal

/-!
# `strtol`

The number at the front of a text, in base 10 or 16: white space, a sign, for base 16 a `0x` with a
digit behind it, and digits. What a `long` does not hold becomes the nearest number that it does.
-/
namespace Dwframe.Lib

/-- `isspace` in the C locale. -/
def isSpace (b : UInt8) : Bool := b == 32 || (decide (9 ≤ b) && decide (b ≤ 13))

/-- The value of a digit, in either case. -/
def digitValue (b : UInt8) : Option Nat :=
  if isDigit b then some (b.toNat - 48)
  else if 65 ≤ b ∧ b ≤ 90 then some (b.toNat - 55)
  else if 97 ≤ b ∧ b ≤ 122 then some (b.toNat - 87)
  else none

/-- The value of a digit of this base. -/
def digitIn (base : Nat) (b : UInt8) : Option Nat := (digitValue b).filter (· < base)

/-- The digits at the front of a text, behind a number that was read so far. -/
def readDigits (base : Nat) : Nat → List UInt8 → Nat
  | n, [] => n
  | n, b :: rest =>
    match digitIn base b with
    | none => n
    | some d => readDigits base (base * n + d) rest

/-- `0x`, where a digit follows. -/
def skipPrefix (base : Nat) : List UInt8 → List UInt8
  | 48 :: x :: d :: rest =>
    if base = 16 ∧ (x = 120 ∨ x = 88) ∧ (digitIn 16 d).isSome then d :: rest
    else 48 :: x :: d :: rest
  | text => text

/-- The bounds of a `long`. -/
def clampLong (n : Int) : Int := max (-2 ^ 63) (min n (2 ^ 63 - 1))

def strtol (base : Nat) (text : List UInt8) : Int :=
  match text.dropWhile isSpace with
  | 45 :: rest => clampLong (-readDigits base 0 (skipPrefix base rest))
  | 43 :: rest => clampLong (readDigits base 0 (skipPrefix base rest))
  | rest => clampLong (readDigits base 0 (skipPrefix base rest))

/-- A text of digits of this base, and the number it denotes behind another one. -/
theorem readDigits_append {base : Nat} {digits stop : List UInt8}
    (ends : ∀ b ∈ stop.head?, digitIn base b = none) : ∀ {n : Nat},
    (∀ b ∈ digits, (digitIn base b).isSome) → readDigits base n (digits ++ stop) =
      digits.foldl (fun n b => base * n + (digitIn base b).getD 0) n := by
  induction digits with
  | nil =>
    intro n _
    cases stop with
    | nil => rfl
    | cons b stop => simp only [List.nil_append, readDigits, ends b rfl, List.foldl_nil]
  | cons b digits ih =>
    intro n all
    obtain ⟨d, value⟩ := Option.isSome_iff_exists.mp (all b List.mem_cons_self)
    have later := @ih (base * n + d) fun c member => all c (.tail _ member)
    simp only [List.cons_append, readDigits, value, later, List.foldl_cons, Option.getD_some]

/-- A digit is neither white space nor a sign, and begins no `0x`. -/
theorem strtol_eq {base : Nat} {text : List UInt8} {b : UInt8} {rest : List UInt8}
    (same : text = b :: rest) (digit : (digitIn base b).isSome)
    (plain : base = 16 → ∀ c ∈ rest.head?, c ≠ 120 ∧ c ≠ 88) :
    strtol base text = clampLong (readDigits base 0 text) := by
  subst same
  have noSpace : isSpace b = false := by
    rw [Bool.eq_false_iff]
    intro space
    have values : ∀ n < 256, isSpace (UInt8.ofNat n) → digitValue (UInt8.ofNat n) = none := by
      decide +kernel
    have none := values b.toNat b.toNat_lt (by rwa [UInt8.ofNat_toNat])
    rw [UInt8.ofNat_toNat] at none
    rw [digitIn, none] at digit
    cases digit
  have skipped : skipPrefix base (b :: rest) = b :: rest := by
    unfold skipPrefix
    split
    next x d rest' same =>
      rw [List.cons.injEq] at same
      obtain ⟨rfl, rfl⟩ := same
      rw [if_neg]
      rintro ⟨hex, x, -⟩
      have kept := plain hex _ rfl
      exact x.elim kept.1 kept.2
    next => rfl
  unfold strtol
  rw [List.dropWhile_cons_of_neg (by simp [noSpace])]
  split
  next same =>
    rw [List.cons.injEq] at same
    rw [same.1] at digit
    simp [digitIn, digitValue, isDigit] at digit
  next same =>
    rw [List.cons.injEq] at same
    rw [same.1] at digit
    simp [digitIn, digitValue, isDigit] at digit
  next => rw [skipped]

theorem digitIn_ten {b : UInt8} (digit : isDigit b) : digitIn 10 b = some (b.toNat - 48) := by
  have range : b.toNat - 48 < 10 := by
    simp only [isDigit, Bool.and_eq_true, decide_eq_true_eq, UInt8.le_iff_toNat_le,
      UInt8.reduceToNat] at digit
    omega
  simp [digitIn, digitValue, digit, range]

/-- The digits of a number, with no digit behind them. -/
theorem strtol_ofDecimal {digits stop : List UInt8} {n : Nat} (denotes : ofDecimal digits = some n)
    (ends : ∀ b ∈ stop.head?, digitIn 10 b = none) :
    strtol 10 (digits ++ stop) = clampLong n := by
  obtain ⟨notEmpty, all⟩ := ofDecimal_eq_some denotes
  obtain ⟨b, rest, rfl⟩ := List.exists_cons_of_ne_nil notEmpty
  have values : ∀ c ∈ b :: rest, digitIn 10 c = some (c.toNat - 48) :=
    fun c member => digitIn_ten (all c member)
  rw [strtol_eq (List.cons_append ..) (by simp [values b List.mem_cons_self]) (by simp),
    readDigits_append ends fun c member => by simp [values c member]]
  have same : (b :: rest).foldl (fun n b => 10 * n + (digitIn 10 b).getD 0) 0 =
      (b :: rest).foldl (fun n b => 10 * n + (b.toNat - 48)) 0 :=
    List.foldl_ext _ _ _ fun n c member => by rw [values c member, Option.getD_some]
  unfold ofDecimal at denotes
  split at denotes
  next =>
    rw [Option.some.injEq] at denotes
    rw [same, denotes]
  next => cases denotes

end Dwframe.Lib
