import Mathlib.Data.List.Induction

/-!
# A slot over a history

A slot takes the first value put into it and keeps it until it is erased. What it holds is the
value of the use that filled it: everything put in earlier has been erased, and nothing was erased
since.
-/
namespace Dwframe.Lib.Slot

/-- What one event does to the slot. -/
inductive Use (ν : Type) where
  | put (v : ν)
  | erase
  | skip

variable {ν : Type}

def Use.apply : Option ν → Use ν → Option ν
  | some v, .put _ => some v
  | none, .put v => some v
  | _, .erase => none
  | slot, .skip => slot

@[simp] theorem Use.apply_skip (slot : Option ν) : Use.apply slot .skip = slot := by
  cases slot <;> rfl

@[simp] theorem Use.apply_erase (slot : Option ν) : Use.apply slot .erase = none := by
  cases slot <;> rfl

/-- What the slot holds after the uses. -/
def held (uses : List (Use ν)) : Option ν := uses.foldl Use.apply none

/-- The use at `i` filled the slot with `v`, and the slot was not erased since. -/
structure Fills (uses : List (Use ν)) (i : Nat) (v : ν) : Prop where
  filled : uses[i]? = some (.put v)
  free : ∀ j < i, ∀ w, uses[j]? = some (.put w) → ∃ k, j < k ∧ k < i ∧ uses[k]? = some .erase
  kept : ∀ j, i < j → uses[j]? ≠ some .erase

variable {uses : List (Use ν)} {v w : ν} {i j : Nat}

theorem held_append (uses : List (Use ν)) (use : Use ν) :
    held (uses ++ [use]) = use.apply (held uses) := by
  rw [held, List.foldl_append]
  rfl

/-- A use in the front part, or the last one. -/
theorem getElem?_append_eq_some {use last : Use ν} (found : (uses ++ [last])[j]? = some use) :
    (j < uses.length ∧ uses[j]? = some use) ∨ (j = uses.length ∧ last = use) := by
  rcases Nat.lt_trichotomy j uses.length with inside | rfl | beyond
  · rw [List.getElem?_append_left inside] at found
    exact Or.inl ⟨inside, found⟩
  · rw [List.getElem?_concat_length] at found
    exact Or.inr ⟨rfl, Option.some.inj found⟩
  · rw [List.getElem?_eq_none (by simp; omega)] at found
    cases found

theorem getElem?_append_front {use last : Use ν} (found : uses[j]? = some use) :
    (uses ++ [last])[j]? = some use := by
  have inside : j < uses.length := (List.getElem?_eq_some_iff.mp found).1
  rwa [List.getElem?_append_left inside]

/-- In a history that leaves the slot empty, whatever was put in was erased later. -/
theorem erased_of_held_none (empty : held uses = none) :
    ∀ j w, uses[j]? = some (.put w) → ∃ k, j < k ∧ k < uses.length ∧ uses[k]? = some .erase := by
  induction uses using List.reverseRecOn with
  | nil => intro j w found; cases found
  | append_singleton uses last ih =>
    intro j w found
    rw [held_append] at empty
    rw [List.length_append, List.length_singleton]
    rcases getElem?_append_eq_some found with ⟨inside, earlier⟩ | ⟨-, rfl⟩
    · -- only an erase or a skip leaves an empty slot empty
      cases last with
      | put v => cases slot : held uses <;> rw [slot] at empty <;> cases empty
      | erase => exact ⟨uses.length, inside, by omega, List.getElem?_concat_length⟩
      | skip =>
        cases slot : held uses with
        | some v => rw [slot] at empty; cases empty
        | none =>
          obtain ⟨k, behind, before, erase⟩ := ih slot j w earlier
          exact ⟨k, behind, by omega, getElem?_append_front erase⟩
    · cases slot : held uses <;> rw [slot] at empty <;> cases empty

/-- A use behind that erases nothing. -/
theorem Fills.append (fills : Fills uses i v) {last : Use ν} (keeps : last ≠ .erase) :
    Fills (uses ++ [last]) i v := by
  have inside : i < uses.length := (List.getElem?_eq_some_iff.mp fills.filled).1
  refine ⟨getElem?_append_front fills.filled, fun j before w found => ?_, fun j behind found => ?_⟩
  · rcases getElem?_append_eq_some found with ⟨-, earlier⟩ | ⟨late, -⟩
    · obtain ⟨k, after, below, erase⟩ := fills.free j before w earlier
      exact ⟨k, after, below, getElem?_append_front erase⟩
    · omega
  · rcases getElem?_append_eq_some found with ⟨-, earlier⟩ | ⟨-, erase⟩
    · exact fills.kept j behind earlier
    · exact keeps erase

theorem exists_fills_of_held (full : held uses = some v) : ∃ i, Fills uses i v := by
  induction uses using List.reverseRecOn with
  | nil => cases full
  | append_singleton uses last ih =>
    rw [held_append] at full
    cases slot : held uses with
    | some w =>
      rw [slot] at full
      cases last with
      | erase => cases full
      | put _ | skip =>
        cases full
        obtain ⟨i, fills⟩ := ih slot
        exact ⟨i, fills.append nofun⟩
    | none =>
      rw [slot] at full
      cases last with
      | erase | skip => cases full
      | put w =>
        cases full
        -- the last use fills the slot: all others were erased
        refine ⟨uses.length, List.getElem?_concat_length, fun j before w' found => ?_,
          fun j behind found => ?_⟩
        · rw [List.getElem?_append_left before] at found
          obtain ⟨k, after, below, erase⟩ := erased_of_held_none slot j w' found
          exact ⟨k, after, below, getElem?_append_front erase⟩
        · rcases getElem?_append_eq_some found with ⟨inside, -⟩ | ⟨late, -⟩ <;> omega

/-- The slot was filled once. -/
theorem Fills.unique (first : Fills uses i v) (second : Fills uses j w) : v = w := by
  -- the earlier of two would have been erased before the later, but it was kept
  rcases Nat.lt_trichotomy i j with before | rfl | after
  · obtain ⟨k, behind, -, erase⟩ := second.free i before v first.filled
    exact absurd erase (first.kept k behind)
  · have same := first.filled.symm.trans second.filled
    cases same
    rfl
  · obtain ⟨k, behind, -, erase⟩ := first.free j after w second.filled
    exact absurd erase (second.kept k behind)

theorem held_eq_some_iff : held uses = some v ↔ ∃ i, Fills uses i v := by
  constructor
  · exact exists_fills_of_held
  · rintro ⟨i, fills⟩
    cases slot : held uses with
    | none =>
      obtain ⟨k, behind, -, erase⟩ := erased_of_held_none slot i v fills.filled
      exact absurd erase (fills.kept k behind)
    | some w =>
      obtain ⟨j, others⟩ := exists_fills_of_held slot
      rw [fills.unique others]

end Dwframe.Lib.Slot
