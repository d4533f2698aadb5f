import Mathlib.Order.Lattice
import Mathlib.Data.List.Basic

/-!
# A map kept in the order of its keys

`std::map` as the entries its iterators visit.
-/
namespace Dwframe.Lib

structure SortedMap (κ ν : Type) [LinearOrder κ] where
  entries : List (κ × ν)
  sorted : entries.Pairwise fun a b => a.1 < b.1

namespace SortedMap

variable {κ ν : Type} [LinearOrder κ]

@[ext] theorem ext {m n : SortedMap κ ν} (same : m.entries = n.entries) : m = n := by
  cases m
  cases n
  cases same
  rfl

def empty : SortedMap κ ν := ⟨[], List.Pairwise.nil⟩

/-- The entries after an insertion; an entry of the same key is kept. -/
def insertEntry (k : κ) (v : ν) : List (κ × ν) → List (κ × ν)
  | [] => [(k, v)]
  | (l, w) :: rest =>
    if k < l then (k, v) :: (l, w) :: rest
    else if l < k then (l, w) :: insertEntry k v rest
    else (l, w) :: rest

theorem mem_insertEntry {k : κ} {v : ν} {entries : List (κ × ν)} {entry : κ × ν}
    (member : entry ∈ insertEntry k v entries) : entry = (k, v) ∨ entry ∈ entries := by
  induction entries with
  | nil => simpa [insertEntry] using member
  | cons first rest ih =>
    simp only [insertEntry] at member
    split at member
    next => simpa using member
    next =>
      split at member
      next =>
        rcases List.mem_cons.mp member with rfl | later
        · exact Or.inr List.mem_cons_self
        · exact (ih later).imp id (List.mem_cons_of_mem _)
      next => exact Or.inr member

theorem sorted_insertEntry (k : κ) (v : ν) {entries : List (κ × ν)}
    (sorted : entries.Pairwise fun a b => a.1 < b.1) :
    (insertEntry k v entries).Pairwise fun a b => a.1 < b.1 := by
  induction entries with
  | nil => exact List.pairwise_singleton _ _
  | cons first rest ih =>
    obtain ⟨below, later⟩ := List.pairwise_cons.mp sorted
    simp only [insertEntry]
    split
    next front =>
      refine List.pairwise_cons.mpr ⟨fun entry member => ?_, sorted⟩
      rcases List.mem_cons.mp member with rfl | behind
      · exact front
      · exact lt_trans front (below entry behind)
    next =>
      split
      next behind =>
        refine List.pairwise_cons.mpr ⟨fun entry member => ?_, ih later⟩
        rcases mem_insertEntry member with rfl | old
        · exact behind
        · exact below entry old
      next => exact sorted

def insert (m : SortedMap κ ν) (k : κ) (v : ν) : SortedMap κ ν :=
  ⟨insertEntry k v m.entries, sorted_insertEntry k v m.sorted⟩

theorem insertEntry_of_below {k : κ} {entries : List (κ × ν)}
    (below : ∀ entry ∈ entries, entry.1 < k) (v : ν) :
    insertEntry k v entries = entries ++ [(k, v)] := by
  induction entries with
  | nil => rfl
  | cons first rest ih =>
    obtain ⟨front, later⟩ := List.forall_mem_cons.mp below
    rw [insertEntry, if_neg (lt_asymm front), if_pos front, ih later, List.cons_append]

/-- Entries in order are put one behind the other. -/
theorem foldl_insert_of_sorted {entries : List (κ × ν)}
    (sorted : entries.Pairwise fun a b => a.1 < b.1) :
    entries.foldl (fun m it => m.insert it.1 it.2) empty = ⟨entries, sorted⟩ := by
  have behind : ∀ (rest : List (κ × ν)) (m : SortedMap κ ν),
      (m.entries ++ rest).Pairwise (fun a b => a.1 < b.1) →
        (rest.foldl (fun m it => m.insert it.1 it.2) m).entries = m.entries ++ rest := by
    intro rest
    induction rest with
    | nil => exact fun m _ => (List.append_nil _).symm
    | cons first rest ih =>
      intro m whole
      have below : ∀ entry ∈ m.entries, entry.1 < first.1 := fun entry member =>
        (List.pairwise_append.mp whole).2.2 entry member first List.mem_cons_self
      have next : (m.insert first.1 first.2).entries = m.entries ++ [first] :=
        insertEntry_of_below below first.2
      rw [List.foldl_cons, ih _ (by rwa [next, List.append_assoc]), next, List.append_assoc]
      rfl
  exact ext (behind entries empty sorted)

end SortedMap

end Dwframe.Lib
