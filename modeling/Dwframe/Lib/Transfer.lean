import Mathlib.Order.Basic

/-!
# Transfers in several calls

A transfer of `length` units is made by calls that each move some of what is left or fail. The
calls are numbered; a positive result is the number of units moved, any other a failure that ends
the transfer.
-/
namespace Dwframe.Lib.Transfer

variable {results : Nat → Int} {length j k : Nat} {value : Int}

/-- What the first `k` calls move. -/
def moved (results : Nat → Int) : Nat → Nat
  | 0 => 0
  | k + 1 => moved results k + (results k).toNat

/-- None of the first `k` calls fails. -/
def Progress (results : Nat → Int) (k : Nat) : Prop := ∀ j < k, 0 < results j

/-- Call `k` is made and fails. -/
structure Fails (results : Nat → Int) (length k : Nat) : Prop where
  before : Progress results k
  short : moved results k < length
  failed : results k ≤ 0

/-- The first `k` calls move everything. -/
structure Completes (results : Nat → Int) (length k : Nat) : Prop where
  before : Progress results k
  whole : moved results k = length

/-- No call that is made moves more than is left of `bound`. -/
def Honest (results : Nat → Int) (length bound : Nat) : Prop :=
  ∀ k, Progress results k → moved results k < length → results k ≤ bound - moved results k

/-- `value` tells how the transfer ended, and the first `k` calls are those whose units have been
moved. -/
structure Sound (results : Nat → Int) (length : Nat) (value : Int) (k : Nat) : Prop where
  before : Progress results k
  positive : 0 < value ↔ moved results k = length
  failure : ∀ r ≤ 0, value = r ↔ ∃ j, Fails results length j ∧ results j = r
  earlier : ∀ j, Fails results length j → k = j

theorem moved_mono (le : j ≤ k) : moved results j ≤ moved results k := by
  induction k with
  | zero => exact Nat.le_of_eq (congrArg _ (Nat.le_zero.mp le))
  | succ k ih =>
    rcases Nat.le_succ_iff.mp le with before | rfl
    · exact Nat.le_trans (ih before) (Nat.le_add_right _ _)
    · exact Nat.le_refl _

theorem Progress.zero : Progress results 0 := fun _ below => absurd below (Nat.not_lt_zero _)

theorem Progress.succ (before : Progress results k) (positive : 0 < results k) :
    Progress results (k + 1) := by
  intro j below
  rcases Nat.lt_succ_iff_lt_or_eq.mp below with earlier | rfl
  · exact before j earlier
  · exact positive

theorem moved_succ (positive : 0 < results k) :
    (moved results (k + 1) : Int) = moved results k + results k := by
  rw [moved]
  omega

/-- A failed call is the last one. -/
theorem Fails.last (fails : Fails results length j) (before : Progress results k) : k ≤ j := by
  -- a call before `k` does not fail
  by_contra later
  have positive := before j (Nat.not_le.mp later)
  have failed := fails.failed
  omega

theorem Fails.unique (first : Fails results length j) (second : Fails results length k) : j = k :=
  Nat.le_antisymm (second.last first.before) (first.last second.before)

theorem Completes.not_fails (completes : Completes results length k) :
    ¬Fails results length j := by
  intro fails
  have le : moved results k ≤ moved results j := moved_mono (fails.last completes.before)
  have whole := completes.whole
  have short := fails.short
  omega

/-- A failure tells how the transfer ended. -/
theorem Fails.sound (fails : Fails results length k) : Sound results length (results k) k where
  before := fails.before
  positive := by
    have short := fails.short
    have failed := fails.failed
    constructor <;> intro absurd <;> omega
  failure := by
    intro r _
    constructor
    · intro same
      exact ⟨k, fails, same⟩
    · rintro ⟨j, others, same⟩
      rw [fails.unique others]
      exact same
  earlier := fun _ others => fails.unique others

/-- Where everything was moved, only a positive value tells so. -/
theorem Completes.positive (completes : Completes results length k)
    (sound : Sound results length value j) : 0 < value := by
  by_contra failure
  obtain ⟨i, fails, -⟩ := (sound.failure value (by omega)).mp rfl
  exact completes.not_fails fails

theorem Completes.sound (completes : Completes results length k) (positive : 0 < value) :
    Sound results length value k where
  before := completes.before
  positive := iff_of_true positive completes.whole
  failure := by
    intro r failure
    constructor
    · intro same
      omega
    · rintro ⟨j, fails, -⟩
      exact absurd fails completes.not_fails
  earlier := fun _ fails => absurd fails completes.not_fails

end Dwframe.Lib.Transfer
