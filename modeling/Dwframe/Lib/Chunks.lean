import Mathlib.Data.List.Basic

/-!
# A stream in chunks

A stream that arrives as a list of chunks, and items that are written to it one behind the other.
`dropChunks` is the stream behind its first elements, with the boundaries that are still ahead.
-/
namespace Dwframe.Lib

variable {α β : Type}

/-- The chunks behind the first `k` elements; the chunk they end in loses its first part. -/
def dropChunks : Nat → List (List α) → List (List α)
  | _, [] => []
  | k, chunk :: chunks =>
    if k < chunk.length then chunk.drop k :: chunks else dropChunks (k - chunk.length) chunks

theorem flatten_dropChunks (chunks : List (List α)) : ∀ k : Nat,
    (dropChunks k chunks).flatten = chunks.flatten.drop k := by
  induction chunks with
  | nil => simp [dropChunks]
  | cons chunk chunks ih =>
    intro k
    simp only [dropChunks, List.flatten_cons]
    split
    next inside =>
      rw [List.flatten_cons, List.drop_append_of_le_length (Nat.le_of_lt inside)]
    next behind =>
      have passed : chunk.length ≤ k := Nat.le_of_not_lt behind
      rw [ih, List.drop_append, List.drop_eq_nil_of_le passed, List.nil_append]

theorem ne_nil_of_mem_dropChunks {chunks : List (List α)} (nonempty : ∀ c ∈ chunks, c ≠ []) :
    ∀ {k : Nat}, ∀ c ∈ dropChunks k chunks, c ≠ [] := by
  induction chunks with
  | nil => simp [dropChunks]
  | cons chunk chunks ih =>
    intro k c member
    have later : ∀ c ∈ chunks, c ≠ [] := fun c found => nonempty c (.tail _ found)
    simp only [dropChunks] at member
    split at member
    next inside =>
      rcases List.mem_cons.mp member with rfl | found
      · intro empty
        have := List.drop_eq_nil_iff.mp empty
        omega
      · exact later c found
    next => exact ih later c member

/-- Nothing is dropped where no chunk is empty. -/
theorem dropChunks_zero {chunks : List (List α)} (nonempty : ∀ c ∈ chunks, c ≠ []) :
    dropChunks 0 chunks = chunks := by
  cases chunks with
  | nil => rfl
  | cons chunk chunks =>
    have inside : 0 < chunk.length :=
      List.length_pos_iff.mpr (nonempty chunk List.mem_cons_self)
    rw [dropChunks, if_pos inside, List.drop_zero]

/-- Dropping whole chunks. -/
theorem dropChunks_append {front chunks : List (List α)} (nonempty : ∀ c ∈ chunks, c ≠ []) :
    dropChunks front.flatten.length (front ++ chunks) = chunks := by
  induction front with
  | nil => exact dropChunks_zero nonempty
  | cons chunk front ih =>
    rw [List.flatten_cons, List.length_append, List.cons_append, dropChunks,
      if_neg (Nat.not_lt.mpr (Nat.le_add_right _ _)), Nat.add_sub_cancel_left]
    exact ih

/-- `holds` is true of every item and the chunk in which it begins, from its beginning on. -/
def AtChunks (encode : β → List α) (holds : β → List α → Prop) :
    List β → List (List α) → Prop
  | [], _ => True
  | _ :: _, [] => False
  | item :: items, chunk :: chunks => holds item chunk ∧
    AtChunks encode holds items (dropChunks (encode item).length (chunk :: chunks))

instance AtChunks.decidable {encode : β → List α} {holds : β → List α → Prop}
    [∀ item chunk, Decidable (holds item chunk)] :
    ∀ items chunks, Decidable (AtChunks encode holds items chunks)
  | [], _ => inferInstanceAs (Decidable True)
  | _ :: _, [] => inferInstanceAs (Decidable False)
  | item :: items, chunk :: chunks =>
    have : Decidable (AtChunks encode holds items
      (dropChunks (encode item).length (chunk :: chunks))) := AtChunks.decidable items _
    inferInstanceAs (Decidable (holds item chunk ∧ _))

end Dwframe.Lib
