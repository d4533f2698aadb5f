import Mathlib.Data.List.Basic

/-!
# Machines that read symbols and perform actions

A symbol leads from a state to a state and performs actions on registers, or there is no edge for
it. A run goes over a text from a position on; it ends behind the text, at a symbol without an
edge, or behind an action that is the last one.
-/
namespace Dwframe.Lib

/-- The edges of a machine. -/
abbrev Transducer (σ ι α : Type) := σ → ι → Option (σ × List α)

/-- Where a run ended: the state, `none` at a symbol without an edge, the registers, and the
position. -/
structure Halt (σ ρ : Type) where
  state : Option σ
  registers : ρ
  position : Nat
  deriving DecidableEq, Repr

namespace Transducer

variable {σ ι α ρ : Type}

/-- The run from position `p` on; an action on the registers may fail. -/
def run (δ : Transducer σ ι α) (act : Nat → ρ → α → Option ρ) (last : α → Bool) :
    σ → ρ → Nat → List ι → Option (Halt σ ρ)
  | s, r, p, [] => some ⟨some s, r, p⟩
  | s, r, p, b :: rest =>
    match δ s b with
    | none => some ⟨none, r, p⟩
    | some (target, actions) =>
      match actions.foldlM (act p) r with
      | none => none
      | some r => if actions.any last then some ⟨some target, r, p + 1⟩
        else run δ act last target r (p + 1) rest

section Run

variable {δ : Transducer σ ι α} {act : Nat → ρ → α → Option ρ} {last : α → Bool} {s target : σ}
  {r performed : ρ} {p : Nat} {b : ι} {rest : List ι} {actions : List α}

theorem run_stuck (stuck : δ s b = none) :
    run δ act last s r p (b :: rest) = some ⟨none, r, p⟩ := by
  rw [run, stuck]

theorem run_step (moved : δ s b = some (target, actions)) (more : actions.any last = false)
    (acts : actions.foldlM (act p) r = some performed) :
    run δ act last s r p (b :: rest) = run δ act last target performed (p + 1) rest := by
  rw [run, moved]
  simp only [acts, more, Bool.false_eq_true, if_false]

end Run

/-! ### Reading a text -/

/-- The text is read from the one state to the other: every symbol has an edge, and no action
fails or is the last one. -/
inductive Reads (δ : Transducer σ ι α) (act : Nat → ρ → α → Option ρ) (last : α → Bool) :
    σ → ρ → Nat → List ι → σ → ρ → Prop where
  | nil {s : σ} {r : ρ} {p : Nat} : Reads δ act last s r p [] s r
  | cons {s next target : σ} {r performed after : ρ} {p : Nat} {b : ι} {rest : List ι}
      {actions : List α} (moved : δ s b = some (next, actions)) (more : actions.any last = false)
      (acts : actions.foldlM (act p) r = some performed)
      (later : Reads δ act last next performed (p + 1) rest target after) :
      Reads δ act last s r p (b :: rest) target after

section Reads

variable {δ : Transducer σ ι α} {act : Nat → ρ → α → Option ρ} {last : α → Bool}

theorem Reads.run {s target : σ} {r after : ρ} {p : Nat} {text : List ι}
    (reads : Reads δ act last s r p text target after) (rest : List ι) :
    δ.run act last s r p (text ++ rest) = δ.run act last target after (p + text.length) rest := by
  induction reads with
  | nil => rfl
  | cons moved more acts later ih =>
    rw [List.cons_append, run_step moved more acts, ih, List.length_cons, Nat.add_assoc,
      Nat.add_comm 1]

theorem Reads.append {s mid target : σ} {r between after : ρ} {p : Nat} {a b : List ι}
    (first : Reads δ act last s r p a mid between)
    (second : Reads δ act last mid between (p + a.length) b target after) :
    Reads δ act last s r p (a ++ b) target after := by
  induction first with
  | nil => exact second
  | cons moved more acts later ih =>
    rw [List.length_cons, Nat.add_comm _ 1, ← Nat.add_assoc] at second
    exact .cons moved more acts (ih second)

theorem Reads.single {s target : σ} {r performed : ρ} {p : Nat} {b : ι} {actions : List α}
    (moved : δ s b = some (target, actions)) (more : actions.any last = false)
    (acts : actions.foldlM (act p) r = some performed) :
    Reads δ act last s r p [b] target performed := .cons moved more acts .nil

end Reads

/-! ### Symbols without an action -/

/-- The symbols lead from the one state to the other, and none performs an action. -/
inductive Glides (δ : Transducer σ ι α) : σ → List ι → σ → Prop where
  | nil {s : σ} : Glides δ s [] s
  | cons {s next target : σ} {b : ι} {rest : List ι} (moved : δ s b = some (next, []))
      (later : Glides δ next rest target) : Glides δ s (b :: rest) target

theorem Glides.reads {δ : Transducer σ ι α} {act : Nat → ρ → α → Option ρ} {last : α → Bool}
    {s target : σ} {text : List ι} (glides : Glides δ s text target) :
    ∀ {r : ρ} {p : Nat}, Reads δ act last s r p text target r := by
  induction glides with
  | nil => exact .nil
  | cons moved later ih => exact .cons moved rfl rfl ih

/-- The state behind symbols that perform no action. -/
def glide (δ : Transducer σ ι α) : σ → List ι → Option σ
  | s, [] => some s
  | s, b :: rest =>
    match δ s b with
    | some (next, []) => glide δ next rest
    | _ => none

end Transducer

/-! ### Tables over bytes -/

/-- For bytes in `lo`..`hi`: go to `target` and perform the actions. -/
structure RangeEdge (α : Type) where
  lo : Nat
  hi : Nat
  target : Nat
  actions : List α
  deriving DecidableEq, Repr

/-- A byte leads along the first edge whose range contains it. -/
def followRanges {α : Type} (row : Nat → List (RangeEdge α)) : Transducer Nat UInt8 α := fun cs b =>
  ((row cs).find? fun e => Nat.ble e.lo b.toNat && Nat.ble b.toNat e.hi).map fun e =>
    (e.target, e.actions)

section Rows

variable {α : Type} [DecidableEq α]

/-- All edges of a row but those of some bytes lead to one state, and every byte has an edge. -/
def leadsElse (row : List (RangeEdge α)) (special : Nat → Bool) (target : Nat) (actions : List α) :
    Bool :=
  (row.all fun e => (List.range' e.lo (e.hi + 1 - e.lo)).all special ||
    (e.target == target && decide (e.actions = actions))) &&
  row.any fun e => e.lo == 0 && e.hi == 255

theorem of_leadsElse {row : Nat → List (RangeEdge α)} {cs target : Nat} {special : Nat → Bool}
    {actions : List α} (leads : leadsElse (row cs) special target actions = true) {b : UInt8}
    (other : special b.toNat = false) : followRanges row cs b = some (target, actions) := by
  rw [leadsElse, Bool.and_eq_true, List.all_eq_true, List.any_eq_true] at leads
  obtain ⟨edges, last, member, range⟩ := leads
  have byte := b.toNat_lt
  simp only [Bool.and_eq_true, beq_iff_eq] at range
  obtain ⟨e, found⟩ : ∃ e, (row cs).find? (fun e =>
      Nat.ble e.lo b.toNat && Nat.ble b.toNat e.hi) = some e := by
    rw [← Option.isSome_iff_exists, List.find?_isSome]
    refine ⟨last, member, ?_⟩
    rw [Bool.and_eq_true, Nat.ble_eq, Nat.ble_eq]
    omega
  have inside := List.find?_some found
  rw [Bool.and_eq_true, Nat.ble_eq, Nat.ble_eq] at inside
  have edge := edges e (List.mem_of_find?_eq_some found)
  rw [Bool.or_eq_true, List.all_eq_true] at edge
  rcases edge with only | leads
  · have held := only b.toNat (by rw [List.mem_range'_1]; omega)
    rw [other] at held
    cases held
  · simp only [Bool.and_eq_true, beq_iff_eq, decide_eq_true_eq] at leads
    rw [followRanges, found, Option.map_some, leads.1, leads.2]

end Rows

/-- A property of bytes, checked on their numbers. -/
theorem forall_byte {holds : UInt8 → Prop} (all : ∀ n < 256, holds (UInt8.ofNat n)) (b : UInt8) :
    holds b := by
  have known := all b.toNat b.toNat_lt
  rwa [UInt8.ofNat_toNat] at known

end Dwframe.Lib
