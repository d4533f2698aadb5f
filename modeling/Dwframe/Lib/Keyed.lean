import Dwframe.Lib.Monad
import Mathlib.Data.List.Basic

/-!
# Loops over keyed elements

A loop over elements with distinct keys, in which each element changes the entry of its own key
only, changes each entry once: by the element of that key.
-/
namespace Dwframe.Lib.Keyed

variable {σ δ κ ν ε : Type} [DecidableEq κ]

/-- The element of a key. -/
def ofKey (key : δ → κ) (ds : List δ) (k : κ) : Option δ := ds.find? fun d => key d = k

theorem ofKey_eq_some {key : δ → κ} {ds : List δ} (distinct : ds.Pairwise fun a b => key a ≠ key b)
    {d : δ} {k : κ} : ofKey key ds k = some d ↔ d ∈ ds ∧ key d = k := by
  constructor
  · intro found
    exact ⟨List.mem_of_find?_eq_some found, by simpa using List.find?_some found⟩
  · rintro ⟨member, rfl⟩
    induction ds with
    | nil => cases member
    | cons e rest ih =>
      obtain ⟨first, later⟩ := List.pairwise_cons.mp distinct
      rcases List.mem_cons.mp member with rfl | behind
      · simp [ofKey]
      · rw [ofKey, List.find?_cons_of_neg (by simpa using first d behind)]
        exact ih later behind

theorem ofKey_eq_none {key : δ → κ} {ds : List δ} {k : κ} :
    ofKey key ds k = none ↔ ∀ d ∈ ds, key d ≠ k := by
  simp [ofKey, List.find?_eq_none]

/-- What the loop makes of every entry, from what its body makes of the entry of one key. -/
theorem foldlM_keyed {f : σ → δ → Except ε σ} (key : δ → κ) (get : σ → κ → ν)
    (change : δ → ν → ν) {ds : List δ} (distinct : ds.Pairwise fun a b => key a ≠ key b)
    (body : ∀ d ∈ ds, ∀ s, ∃ s', f s d = .ok s' ∧
      ∀ k, get s' k = if k = key d then change d (get s k) else get s k) (s : σ) :
    ∃ s', ds.foldlM f s = .ok s' ∧
      ∀ k, get s' k = (ofKey key ds k).elim (get s k) fun d => change d (get s k) := by
  induction ds generalizing s with
  | nil => exact ⟨s, rfl, fun k => rfl⟩
  | cons d rest ih =>
    obtain ⟨first, later⟩ := List.pairwise_cons.mp distinct
    obtain ⟨mid, ran, changed⟩ := body d List.mem_cons_self s
    obtain ⟨s', ran', others⟩ := ih later (fun e member => body e (List.mem_cons_of_mem _ member))
      mid
    refine ⟨s', ?_, fun k => ?_⟩
    · rw [List.foldlM_cons, ran]
      exact ran'
    · rw [others, changed]
      by_cases own : k = key d
      · subst own
        -- no element behind `d` has its key, so its entry stays as `d` left it
        have behind : ofKey key rest (key d) = none :=
          ofKey_eq_none.mpr fun e member => Ne.symm (first e member)
        have front : ofKey key (d :: rest) (key d) = some d := by simp [ofKey]
        rw [behind, front, if_pos rfl]
        rfl
      · rw [if_neg own, ofKey, ofKey, List.find?_cons_of_neg (by simpa using Ne.symm own)]

end Dwframe.Lib.Keyed
