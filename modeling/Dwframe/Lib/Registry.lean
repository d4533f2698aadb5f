import Mathlib.Data.List.Nodup
import Mathlib.Logic.Function.Basic

/-!
# Registrations over a history

A history of events puts values under keys and erases keys. A registration stands
when no later event touches its key. A list that erases a key before appending it
again holds the standing registrations in the order they were made, and a map that
overwrites holds them by key.
-/
namespace Dwframe.Lib.Registry

/-- What an event does to a registry. -/
inductive Edit (κ ν : Type) where
  | put (key : κ) (val : ν)
  | erase (key : κ)

def Edit.key {κ ν : Type} : Edit κ ν → κ
  | .put key _ => key
  | .erase key => key

variable {α κ ν : Type} (view : α → Option (Edit κ ν))

/-- The registration at `i` put `v` under `k`, and no later event touches `k`. -/
def Stands (history : List α) (i : Nat) (k : κ) (v : ν) : Prop :=
  history[i]?.bind view = some (.put k v) ∧
    ∀ j, i < j → ∀ e, history[j]?.bind view = some e → e.key ≠ k

section Stands

variable {view} {history : List α} {i j : Nat} {k : κ} {v w : ν} {a : α}

theorem Stands.lt_length (stands : Stands view history i k v) : i < history.length := by
  by_contra late
  simp [Stands, List.getElem?_eq_none (Nat.le_of_not_lt late)] at stands

/-- A key has one standing registration at most. -/
theorem Stands.unique (first : Stands view history i k v) (second : Stands view history j k w) :
    i = j ∧ v = w := by
  have same : i = j := by
    rcases Nat.lt_trichotomy i j with before | same | after
    · exact absurd rfl (first.2 j before _ second.1)
    · exact same
    · exact absurd rfl (second.2 i after _ first.1)
  subst same
  have equal := first.1.symm.trans second.1
  simp only [Option.some.injEq, Edit.put.injEq, true_and] at equal
  exact ⟨rfl, equal⟩

theorem stands_nil : ¬ Stands view [] i k v := by
  intro stands
  exact absurd stands.lt_length (Nat.not_lt_zero i)

/-- An earlier registration stands after one more event when that event leaves its key alone. -/
theorem stands_append_of_lt (earlier : i < history.length) :
    Stands view (history ++ [a]) i k v ↔
      Stands view history i k v ∧ ∀ e, view a = some e → e.key ≠ k := by
  have kept : ∀ j < history.length, (history ++ [a])[j]? = history[j]? := by
    intro j inside
    exact List.getElem?_append_left inside
  constructor
  · rintro ⟨made, later⟩
    rw [kept i earlier] at made
    refine ⟨⟨made, ?_⟩, ?_⟩
    · intro j after e seen
      apply later j after e
      by_cases inside : j < history.length
      · rw [kept j inside]
        exact seen
      · simp [List.getElem?_eq_none (Nat.le_of_not_lt inside)] at seen
    · intro e seen
      apply later history.length earlier e
      simpa using seen
  · rintro ⟨⟨made, later⟩, last⟩
    refine ⟨by rw [kept i earlier]; exact made, ?_⟩
    intro j after e seen
    rcases Nat.lt_trichotomy j history.length with inside | atEnd | beyond
    · rw [kept j inside] at seen
      exact later j after e seen
    · subst atEnd
      apply last e
      simpa using seen
    · rw [List.getElem?_eq_none (by simp; omega)] at seen
      simp at seen

/-- The registration an event makes stands right after it. -/
theorem stands_append_self :
    Stands view (history ++ [a]) history.length k v ↔ view a = some (.put k v) := by
  simp only [Stands, List.getElem?_concat_length, Option.bind_some]
  refine ⟨And.left, fun made => ⟨made, ?_⟩⟩
  intro j after e seen
  rw [List.getElem?_eq_none (by simp; omega)] at seen
  simp at seen

/-- What stands after one more event: what it registers, and what stood and it leaves alone. -/
theorem stands_append :
    Stands view (history ++ [a]) i k v ↔
      (i = history.length ∧ view a = some (.put k v)) ∨
        (Stands view history i k v ∧ ∀ e, view a = some e → e.key ≠ k) := by
  constructor
  · intro stands
    have bound := stands.lt_length
    simp only [List.length_append, List.length_singleton] at bound
    rcases Nat.lt_or_eq_of_le (Nat.le_of_lt_succ bound) with earlier | last
    · exact Or.inr ((stands_append_of_lt earlier).mp stands)
    · subst last
      exact Or.inl ⟨rfl, stands_append_self.mp stands⟩
  · rintro (⟨last, made⟩ | ⟨stood, spared⟩)
    · subst last
      exact stands_append_self.mpr made
    · exact (stands_append_of_lt stood.lt_length).mpr ⟨stood, spared⟩

end Stands

/-! ## A map that overwrites -/

section Maps

/-- The map holds exactly the standing registrations. -/
def Maps (history : List α) (entries : κ → Option ν) : Prop :=
  ∀ k v, entries k = some v ↔ ∃ i, Stands view history i k v

variable {view} {history : List α} {entries : κ → Option ν} {a : α}

theorem Maps.nil : Maps view [] (fun _ => none) := by
  intro k v
  simp [stands_nil]

theorem Maps.skip (maps : Maps view history entries) (silent : view a = none) :
    Maps view (history ++ [a]) entries := by
  intro k v
  simp [stands_append, silent, maps k v]

theorem Maps.none_iff (maps : Maps view history entries) (k : κ) :
    entries k = none ↔ ∀ i v, ¬ Stands view history i k v := by
  rw [Option.eq_none_iff_forall_ne_some]
  constructor
  · intro absent i v stands
    exact absent v ((maps k v).mpr ⟨i, stands⟩)
  · intro absent v held
    obtain ⟨i, stands⟩ := (maps k v).mp held
    exact absent i v stands

variable [DecidableEq κ]

theorem Maps.put (maps : Maps view history entries) {k : κ} {v : ν}
    (made : view a = some (.put k v)) :
    Maps view (history ++ [a]) (Function.update entries k (some v)) := by
  intro l w
  by_cases same : l = k
  · subst same
    simp [stands_append, made, Edit.key]
  · rw [Function.update_of_ne same, maps l w]
    simp [stands_append, made, Edit.key, Ne.symm same]

theorem Maps.erase (maps : Maps view history entries) {k : κ} (erased : view a = some (.erase k)) :
    Maps view (history ++ [a]) (Function.update entries k none) := by
  intro l w
  by_cases same : l = k
  · subst same
    simp [stands_append, erased, Edit.key]
  · rw [Function.update_of_ne same, maps l w]
    simp [stands_append, erased, Edit.key, Ne.symm same]

end Maps

/-! ## A list in registration order -/

section Lists

/-- The list holds the standing registrations in the order they were made. -/
def Lists (history : List α) (entries : List (κ × ν)) : Prop :=
  ∃ placed : List (Nat × κ × ν), placed.map Prod.snd = entries ∧
    placed.Pairwise (fun x y => x.1 < y.1) ∧
    ∀ i k v, (i, k, v) ∈ placed ↔ Stands view history i k v

variable {view} {history : List α} {entries : List (κ × ν)} {a : α}

theorem Lists.nil : Lists view [] ([] : List (κ × ν)) :=
  ⟨[], rfl, List.Pairwise.nil, fun _ _ _ => by simp [stands_nil]⟩

theorem Lists.skip (lists : Lists view history entries) (silent : view a = none) :
    Lists view (history ++ [a]) entries := by
  obtain ⟨placed, shown, ordered, stands⟩ := lists
  refine ⟨placed, shown, ordered, fun i k v => ?_⟩
  simp [stands_append, silent, stands i k v]

/-- Two standing registrations of a list have different keys. -/
theorem Lists.nodup (lists : Lists view history entries) : (entries.map Prod.fst).Nodup := by
  obtain ⟨placed, shown, ordered, stands⟩ := lists
  subst shown
  rw [List.map_map, List.Nodup, List.pairwise_map]
  apply List.Pairwise.imp_of_mem _ ordered
  rintro ⟨i, k, v⟩ ⟨j, l, w⟩ left right before same
  simp only [Function.comp_apply] at same
  subst same
  have equal := (((stands i k v).mp left).unique ((stands j k w).mp right)).1
  simp only at before
  omega

/-- The first match of the list is the match whose standing registration is the earliest. -/
theorem Lists.find?_eq_some (lists : Lists view history entries) (p : κ → Bool) (k : κ) (v : ν) :
    entries.find? (fun e => p e.1) = some (k, v) ↔
      ∃ i, Stands view history i k v ∧ p k = true ∧
        ∀ j l w, Stands view history j l w → p l = true → i ≤ j := by
  obtain ⟨placed, shown, ordered, stands⟩ := lists
  subst shown
  rw [List.find?_map]
  constructor
  · intro found
    obtain ⟨⟨i, k', v'⟩, first, equal⟩ := Option.map_eq_some_iff.mp found
    simp only [Prod.mk.injEq] at equal
    obtain ⟨rfl, rfl⟩ := equal
    obtain ⟨holds, before, after, split, none⟩ := List.find?_eq_some_iff_append.mp first
    refine ⟨i, (stands i k' v').mp (by rw [split]; simp), holds, ?_⟩
    intro j l w other matched
    have member := (stands j l w).mpr other
    rw [split, List.mem_append, List.mem_cons] at member
    rw [split, List.pairwise_append, List.pairwise_cons] at ordered
    -- a match in front of the found one would have been found; one behind it is later
    rcases member with early | same | late
    · have refused := none _ early
      simp [matched] at refused
    · cases same
      exact Nat.le_refl i
    · exact Nat.le_of_lt (ordered.2.1.1 _ late)
  · rintro ⟨i, standing, matched, earliest⟩
    have member := (stands i k v).mpr standing
    cases first : placed.find? ((fun e => p e.1) ∘ Prod.snd) with
    | none =>
      have refused := List.find?_eq_none.mp first _ member
      simp [matched] at refused
    | some found =>
      obtain ⟨j, l, w⟩ := found
      have holds : p l = true := by simpa using List.find?_some first
      have other := (stands j l w).mp (List.mem_of_find?_eq_some first)
      have notAfter : i ≤ j := earliest j l w other holds
      obtain ⟨_, before, after, split, none⟩ := List.find?_eq_some_iff_append.mp first
      rw [split, List.mem_append, List.mem_cons] at member
      rw [split, List.pairwise_append, List.pairwise_cons] at ordered
      -- the entry found cannot be another one: it would stand in front of the earliest match
      rcases member with early | same | late
      · have refused := none _ early
        simp [matched] at refused
      · cases same
        rfl
      · have later := ordered.2.1.1 _ late
        simp only at later
        omega

theorem Lists.find?_eq_none (lists : Lists view history entries) (p : κ → Bool) :
    entries.find? (fun e => p e.1) = none ↔
      ∀ j l w, Stands view history j l w → p l = false := by
  obtain ⟨placed, shown, ordered, stands⟩ := lists
  subst shown
  rw [List.find?_eq_none]
  constructor
  · intro refused j l w standing
    simpa using refused (l, w) (List.mem_map.mpr ⟨_, (stands j l w).mpr standing, rfl⟩)
  · rintro refused ⟨l, w⟩ member
    obtain ⟨⟨j, l', w'⟩, held, equal⟩ := List.mem_map.mp member
    simp only [Prod.mk.injEq] at equal
    obtain ⟨rfl, rfl⟩ := equal
    simp [refused j l' w' ((stands j l' w').mp held)]

variable [DecidableEq κ]

/-- With distinct keys, erasing the first entry of a key is leaving out all of them. -/
private theorem map_filter_eq_eraseP {placed : List (Nat × κ × ν)} (k : κ)
    (distinct : ((placed.map Prod.snd).map Prod.fst).Nodup) :
    (placed.filter fun x => x.2.1 ≠ k).map Prod.snd =
      (placed.map Prod.snd).eraseP fun e => e.1 = k := by
  induction placed with
  | nil => rfl
  | cons x rest ih =>
    rw [List.map_cons, List.map_cons, List.nodup_cons] at distinct
    by_cases same : x.2.1 = k
    · rw [List.map_cons, List.eraseP_cons_of_pos (by simpa using same),
        List.filter_cons_of_neg (by simpa using same), List.filter_eq_self.mpr]
      intro y member
      have other : y.2.1 ≠ x.2.1 := by
        intro equal
        apply distinct.1
        exact List.mem_map.mpr ⟨y.2, List.mem_map.mpr ⟨y, member, rfl⟩, equal⟩
      rw [same] at other
      simpa using other
    · rw [List.map_cons, List.eraseP_cons_of_neg (by simpa using same),
        List.filter_cons_of_pos (by simpa using same), List.map_cons, ih distinct.2]

/-- Erasing the first entry of a key keeps the registrations of the other keys. -/
private theorem eraseP_lists (lists : Lists view history entries) (k : κ) :
    ∃ placed : List (Nat × κ × ν), placed.map Prod.snd = entries.eraseP (fun e => e.1 = k) ∧
      placed.Pairwise (fun x y => x.1 < y.1) ∧
      ∀ i l v, (i, l, v) ∈ placed ↔ Stands view history i l v ∧ k ≠ l := by
  have distinct := lists.nodup
  obtain ⟨placed, shown, ordered, stands⟩ := lists
  subst shown
  refine ⟨placed.filter (fun x => x.2.1 ≠ k), map_filter_eq_eraseP k distinct,
    ordered.filter _, fun i l v => ?_⟩
  simp only [List.mem_filter, stands i l v, decide_not, Bool.not_eq_eq_eq_not, Bool.not_true,
    decide_eq_false_iff_not, ne_eq, eq_comm (a := k)]

theorem Lists.erase (lists : Lists view history entries) {k : κ}
    (erased : view a = some (.erase k)) :
    Lists view (history ++ [a]) (entries.eraseP (fun e => e.1 = k)) := by
  obtain ⟨placed, shown, ordered, stands⟩ := eraseP_lists lists k
  refine ⟨placed, shown, ordered, fun i l v => ?_⟩
  simp [stands i l v, stands_append, erased, Edit.key]

theorem Lists.put (lists : Lists view history entries) {k : κ} {v : ν}
    (made : view a = some (.put k v)) :
    Lists view (history ++ [a]) (entries.eraseP (fun e => e.1 = k) ++ [(k, v)]) := by
  obtain ⟨placed, shown, ordered, stands⟩ := eraseP_lists lists k
  refine ⟨placed ++ [(history.length, k, v)], by rw [List.map_append, shown]; rfl, ?_, ?_⟩
  · rw [List.pairwise_append]
    refine ⟨ordered, List.pairwise_singleton _ _, ?_⟩
    rintro ⟨i, l, w⟩ member _ last
    rw [List.mem_singleton] at last
    subst last
    exact ((stands i l w).mp member).1.lt_length
  · intro i l w
    rw [List.mem_append, List.mem_singleton, stands i l w, stands_append, made]
    simp only [Prod.mk.injEq, Option.some.injEq, Edit.put.injEq, forall_eq', Edit.key]
    constructor
    · rintro (kept | ⟨last, key, val⟩)
      · exact Or.inr kept
      · exact Or.inl ⟨last, key.symm, val.symm⟩
    · rintro (⟨last, key, val⟩ | kept)
      · exact Or.inr ⟨last, key.symm, val.symm⟩
      · exact Or.inl kept

end Lists

end Dwframe.Lib.Registry
