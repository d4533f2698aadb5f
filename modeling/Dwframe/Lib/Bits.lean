import Mathlib.Data.Nat.Basic

/-!
# Masks and byte order

The bits of a mask `2 ^ n - 1`, and a value with its bytes in the other order, which commutes
with what is done bit by bit.
-/
namespace Dwframe.Lib

variable {w : Nat}

/-- A mask of the `n` low bits. -/
def lowMask (w n : Nat) : BitVec w := 1#w <<< n - 1#w

theorem getLsbD_lowMask {n : Nat} (inside : n < w) (i : Nat) :
    (lowMask w n).getLsbD i = decide (i < n) := by
  have small : 2 ^ n < 2 ^ w := Nat.pow_lt_pow_right Nat.one_lt_two inside
  have some_bit : 1 < 2 ^ w := Nat.one_lt_two_pow (by omega)
  have positive : 0 < 2 ^ n := Nat.two_pow_pos n
  have value : (lowMask w n).toNat = 2 ^ n - 1 := by
    simp only [lowMask, BitVec.toNat_sub, BitVec.toNat_shiftLeft, BitVec.toNat_ofNat,
      Nat.mod_eq_of_lt some_bit, Nat.one_shiftLeft, Nat.mod_eq_of_lt small]
    rw [show 2 ^ w - 1 + 2 ^ n = 2 ^ n - 1 + 2 ^ w by omega, Nat.add_mod_right,
      Nat.mod_eq_of_lt (by omega)]
  rw [BitVec.getLsbD, value, Nat.testBit_two_pow_sub_one]

/-- Only zero has the same part inside a mask as outside it. -/
theorem and_eq_and_not_iff (x mask : BitVec w) : x &&& mask = x &&& ~~~mask ↔ x = 0#w := by
  constructor
  · intro same
    apply BitVec.eq_of_getLsbD_eq
    intro i inside
    have bit := congrArg (BitVec.getLsbD · i) same
    simp only [BitVec.getLsbD_and, BitVec.getLsbD_not, inside, decide_true, Bool.true_and] at bit
    -- a bit of the value would be in both parts
    cases here : x.getLsbD i with
    | false => exact BitVec.getLsbD_zero.symm
    | true =>
      rw [here, Bool.true_and, Bool.true_and] at bit
      exact ((Bool.eq_not_self _).mp bit).elim
  · rintro rfl
    rw [BitVec.zero_and, BitVec.zero_and]

/-- The bytes in the other order. -/
def swapBytes (x : BitVec w) : BitVec w :=
  (BitVec.iunfoldr (fun i _ => ((), x.getLsbD (w - 8 * (i.val / 8 + 1) + i.val % 8))) ()).2

theorem getLsbD_swapBytes (x : BitVec w) {i : Nat} (inside : i < w) :
    (swapBytes x).getLsbD i = x.getLsbD (w - 8 * (i / 8 + 1) + i % 8) :=
  BitVec.iunfoldr_getLsbD (fun _ => ()) ⟨i, inside⟩ fun _ => rfl

theorem swapped_lt (bytes : 8 ∣ w) {i : Nat} (inside : i < w) :
    w - 8 * (i / 8 + 1) + i % 8 < w := by
  omega

theorem swapBytes_swapBytes (bytes : 8 ∣ w) (x : BitVec w) : swapBytes (swapBytes x) = x := by
  apply BitVec.eq_of_getLsbD_eq
  intro i inside
  rw [getLsbD_swapBytes _ inside, getLsbD_swapBytes _ (swapped_lt bytes inside)]
  congr 1
  omega

theorem swapBytes_and (x y : BitVec w) : swapBytes (x &&& y) = swapBytes x &&& swapBytes y := by
  apply BitVec.eq_of_getLsbD_eq
  intro i inside
  simp only [BitVec.getLsbD_and, getLsbD_swapBytes _ inside]

theorem swapBytes_or (x y : BitVec w) : swapBytes (x ||| y) = swapBytes x ||| swapBytes y := by
  apply BitVec.eq_of_getLsbD_eq
  intro i inside
  simp only [BitVec.getLsbD_or, getLsbD_swapBytes _ inside]

theorem swapBytes_not (bytes : 8 ∣ w) (x : BitVec w) : swapBytes (~~~x) = ~~~swapBytes x := by
  apply BitVec.eq_of_getLsbD_eq
  intro i inside
  simp only [BitVec.getLsbD_not, getLsbD_swapBytes _ inside, inside, swapped_lt bytes inside]

theorem swapBytes_eq_zero_iff (bytes : 8 ∣ w) (x : BitVec w) : swapBytes x = 0#w ↔ x = 0#w := by
  have zero : swapBytes 0#w = 0#w := by
    apply BitVec.eq_of_getLsbD_eq
    intro i inside
    rw [getLsbD_swapBytes _ inside, BitVec.getLsbD_zero, BitVec.getLsbD_zero]
  constructor
  · intro swapped
    rw [← swapBytes_swapBytes bytes x, swapped, zero]
  · rintro rfl
    exact zero

/-- A value of two bytes. -/
theorem swapBytes_append (high low : BitVec 8) : swapBytes (high ++ low) = low ++ high := by
  apply BitVec.eq_of_getLsbD_eq
  intro i inside
  rw [getLsbD_swapBytes _ inside, BitVec.getLsbD_append, BitVec.getLsbD_append]
  by_cases first : i < 8
  · rw [if_neg (by omega), if_pos first]
    congr 1
    omega
  · rw [if_pos (by omega), if_neg first]
    congr 1
    omega

end Dwframe.Lib
