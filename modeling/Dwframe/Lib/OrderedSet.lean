import Mathlib.Order.Defs.Unbundled
import Mathlib.Data.List.Basic

/-!
# A set kept in the order of a comparator

`std::set` as the sequence its iterators visit. Every operation consults the
comparator `less` only, as the container does, so the results below need the
sequence to be sorted: a comparator that changed under the elements would void
them.
-/
namespace Dwframe.Lib.OrderedSet

variable {α : Type} (less : α → α → Bool)

/-- `insert(x).first` is the position of `x`; an equivalent element is kept. -/
def insert (x : α) : List α → List α
  | [] => [x]
  | y :: ys => if less y x then y :: insert x ys else if less x y then x :: y :: ys else y :: ys

/-- `find(x)`, with `none` for `end()`. -/
def find (x : α) : List α → Option α
  | [] => none
  | y :: ys => if less y x then find x ys else if less x y then none else some y

/-- The elements before `upper_bound(x)`. -/
def upTo (x : α) (ys : List α) : List α := ys.takeWhile fun y => !less x y

/-- The elements from `upper_bound(x)` on. -/
def beyond (x : α) (ys : List α) : List α := ys.dropWhile fun y => !less x y

abbrev Sorted (ys : List α) : Prop := ys.Pairwise fun a b => less a b = true

@[simp] theorem upTo_append_beyond (x : α) (ys : List α) :
    upTo less x ys ++ beyond less x ys = ys :=
  List.takeWhile_append_dropWhile

variable {less} [order : IsStrictTotalOrder α (fun a b => less a b = true)]
include order

theorem eq_of_not_less {x y : α} (left : ¬less x y = true) (right : ¬less y x = true) : x = y := by
  rcases trichotomous_of (fun a b => less a b = true) x y with h | h | h
  · exact absurd h left
  · exact h
  · exact absurd h right

theorem not_less_self (x : α) : ¬less x x = true := irrefl_of (fun a b => less a b = true) x

theorem Sorted.nodup {ys : List α} (sorted : Sorted less ys) : ys.Nodup := by
  refine List.Pairwise.imp ?_ sorted
  rintro a b before rfl
  exact not_less_self a before

theorem mem_insert (x : α) (ys : List α) {z : α} : z ∈ insert less x ys ↔ z = x ∨ z ∈ ys := by
  induction ys with
  | nil => simp [insert]
  | cons y ys ih =>
    simp only [insert]
    split
    · rw [List.mem_cons, ih, List.mem_cons]
      tauto
    · split
      · rw [List.mem_cons]
      -- neither is smaller: the equivalent element stays, and it is `x`
      · next left right =>
        have same := eq_of_not_less left right
        simp [same]

theorem Sorted.insert {ys : List α} (sorted : Sorted less ys) (x : α) :
    Sorted less (insert less x ys) := by
  induction ys with
  | nil => simp [OrderedSet.insert]
  | cons y ys ih =>
    obtain ⟨first, rest⟩ := List.pairwise_cons.mp sorted
    simp only [OrderedSet.insert]
    split
    -- `y` stays in front; what follows is old, or `x` itself
    next before =>
      refine List.pairwise_cons.mpr ⟨fun z member => ?_, ih rest⟩
      rcases (mem_insert x ys).mp member with rfl | old
      · exact before
      · exact first z old
    next =>
      split
      -- `x` goes in front of `y`, and of everything behind `y` by transitivity
      next after =>
        refine List.pairwise_cons.mpr ⟨fun z member => ?_, sorted⟩
        rcases List.mem_cons.mp member with rfl | old
        · exact after
        · exact trans_of (fun a b => less a b = true) after (first z old)
      next => exact sorted

/-- In a sorted sequence `find` reaches its argument exactly when it is there. -/
theorem find_of_mem {ys : List α} (sorted : Sorted less ys) {x : α} (member : x ∈ ys) :
    find less x ys = some x := by
  induction ys with
  | nil => simp at member
  | cons y ys ih =>
    obtain ⟨first, rest⟩ := List.pairwise_cons.mp sorted
    rcases List.mem_cons.mp member with rfl | later
    · simp [find, not_less_self x]
    · simp [find, first x later, ih rest later]

/-- Inserting an element that is there changes nothing. -/
theorem insert_of_mem {ys : List α} (sorted : Sorted less ys) {x : α} (member : x ∈ ys) :
    insert less x ys = ys := by
  induction ys with
  | nil => simp at member
  | cons y ys ih =>
    obtain ⟨first, rest⟩ := List.pairwise_cons.mp sorted
    rcases List.mem_cons.mp member with rfl | later
    · simp [insert, not_less_self x]
    · simp [insert, first x later, ih rest later]

/-- In a sorted sequence the elements before `upper_bound(x)` are those not above `x`. -/
theorem mem_upTo {ys : List α} (sorted : Sorted less ys) (x : α) {z : α} :
    z ∈ upTo less x ys ↔ z ∈ ys ∧ less x z = false := by
  induction ys with
  | nil => simp [upTo]
  | cons y ys ih =>
    obtain ⟨first, rest⟩ := List.pairwise_cons.mp sorted
    cases above : less x y with
    | false =>
      rw [upTo, List.takeWhile_cons, above]
      simp only [Bool.not_false, if_true, List.mem_cons]
      rw [show z ∈ ys.takeWhile (fun y => !less x y) ↔ _ from ih rest]
      constructor
      · rintro (rfl | ⟨later, below⟩)
        · exact ⟨.inl rfl, above⟩
        · exact ⟨.inr later, below⟩
      · rintro ⟨rfl | later, below⟩
        · exact .inl rfl
        · exact .inr ⟨later, below⟩
    | true =>
      -- `y` is above `x`, and everything behind it is above `y`
      rw [upTo, List.takeWhile_cons, above]
      simp only [Bool.not_true, Bool.false_eq_true, if_false, List.not_mem_nil, false_iff]
      rintro ⟨member, below⟩
      rcases List.mem_cons.mp member with rfl | later
      · rw [above] at below
        cases below
      · rw [trans_of (fun a b => less a b = true) above (first z later)] at below
        cases below

omit order in
/-- Sortedness reads the comparator on the elements only. -/
theorem Sorted.congr {less' : α → α → Bool} {ys : List α} (sorted : Sorted less ys)
    (agree : ∀ a ∈ ys, ∀ b ∈ ys, less' a b = less a b) : Sorted less' ys :=
  sorted.imp_of_mem fun {a b} ha hb before => (agree a ha b hb).trans before

end Dwframe.Lib.OrderedSet
