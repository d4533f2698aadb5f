import Mathlib.Algebra.BigOperators.Group.Finset.Basic
import Mathlib.Data.List.Perm.Basic
import Mathlib.Tactic.Abel

/-!
# Counting over a family of parties

A step of one party changes one value of a family; a sum over the family changes by
that party's share. Taking the first matching element out of a queue splits the queue.
-/
namespace Dwframe.Lib.Tally

/-- Replacing one value exchanges its share of a sum. -/
theorem sum_update {ι α M : Type} [Fintype ι] [DecidableEq ι] [AddCommMonoid M] (share : α → M)
    (f : ι → α) (i : ι) (a : α) :
    ∑ j, share (Function.update f i a j) + share (f i) = ∑ j, share (f j) + share a := by
  have others : ∀ j ∈ Finset.univ.erase i, share (Function.update f i a j) = share (f j) := by
    intro j member
    rw [Function.update_of_ne (Finset.ne_of_mem_erase member)]
  rw [← Finset.add_sum_erase _ _ (Finset.mem_univ i), ← Finset.add_sum_erase Finset.univ
    (fun j => share (f j)) (Finset.mem_univ i), Finset.sum_congr rfl others, Function.update_self]
  abel

/-- The first match of a queue and the rest of it. -/
theorem perm_cons_eraseP {α : Type} {p : α → Bool} {queue : List α} {a : α}
    (found : queue.find? p = some a) : queue.Perm (a :: queue.eraseP p) := by
  induction queue with
  | nil => simp at found
  | cons b rest ih =>
    cases matched : p b with
    | true =>
      rw [List.find?_cons_of_pos matched] at found
      cases found
      rw [List.eraseP_cons_of_pos matched]
    | false =>
      rw [List.find?_cons_of_neg (by simp [matched])] at found
      rw [List.eraseP_cons_of_neg (by simp [matched])]
      exact ((ih found).cons b).trans (List.Perm.swap a b _)

end Dwframe.Lib.Tally
