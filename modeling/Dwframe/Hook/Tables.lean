import Dwframe.IoManager.Model
import Dwframe.Lib.Run
import Dwframe.Lib.Slot
import Dwframe.Lib.Monad
import Mathlib.Algebra.GroupWithZero.Nat

/-!
# Two tables indexed by descriptors

`FdManager` and `IOManager` keep one entry per descriptor in a vector that grows on demand. Every
call compares the descriptor with the size of the vector first, as two values of `int`: a negative
descriptor passes for a small one, and a size beyond `INT_MAX` for a negative one.

An `FdCtx` is the pointer to it, given by `new`; the constructor changes neither table. The calls
of `IOManager` behind the comparison are those of `Dwframe.IoManager.Model`.
-/
namespace Dwframe

open Lib Lib.Run Lib.Slot

/-- `(int)size`. -/
def sizeInt (size : Nat) : Int := Int.bmod size (2 ^ 32)

/-! ### `FdManager` -/

/-- `m_datas`. -/
structure FdManager (γ : Type) where
  datas : List (Option γ)
  deriving DecidableEq

namespace FdManager

variable {γ : Type}

def create : FdManager γ := ⟨List.replicate 64 none⟩

/-- `m_datas[fd]`. -/
def index (m : FdManager γ) (fd : Int) : Except IoFault (Option γ) :=
  if fd < 0 then .error .outOfBounds
  else
    match m.datas[fd.toNat]? with
    | none => .error .outOfBounds
    | some ctx => .ok ctx

/-- `m_datas[fd] = ctx`. -/
def assign (m : FdManager γ) (fd : Int) (ctx : Option γ) : Except IoFault (FdManager γ) := do
  let _ ← m.index fd
  return ⟨m.datas.set fd.toNat ctx⟩

/-- `m_datas.resize(size)`. -/
def resize (m : FdManager γ) (size : Nat) : FdManager γ :=
  ⟨m.datas.take size ++ List.replicate (size - m.datas.length) none⟩

/-- The end of `get`, with the new context. `fd * 1.5` is rounded down. -/
def store (m : FdManager γ) (fd : Int) (ctx : γ) : Except IoFault (Option γ × FdManager γ) := do
  let m := if fd ≥ sizeInt m.datas.length then m.resize (fd.toNat * 3 / 2) else m
  let m ← m.assign fd (some ctx)
  return (some ctx, m)

/-- `FdManager::get`; `ctx` is what `new` gives if a context is made. -/
def get (m : FdManager γ) (fd : Int) (auto_create : Bool) (ctx : γ) :
    Except IoFault (Option γ × FdManager γ) :=
  if sizeInt m.datas.length ≤ fd then
    if auto_create = false then .ok (none, m) else m.store fd ctx
  else do
    let found ← m.index fd
    if found.isSome || !auto_create then .ok (found, m) else m.store fd ctx

def del (m : FdManager γ) (fd : Int) : Except IoFault (FdManager γ) :=
  if sizeInt m.datas.length ≤ fd then .ok m else m.assign fd none

end FdManager

/-! ### `IOManager` -/

namespace IOManager

variable {σ φ κ : Type}

/-- `addEvent`, with the sizes in `int`. -/
def addEventInt (m : IOManager σ φ κ) (caller : Caller σ φ) (fd : Int) (event : Event)
    (cb : Option κ) (ctl : Bool) : Except IoFault (Int × IOManager σ φ κ) := do
  let m := if sizeInt m.fdContexts.length > fd then m else m.contextResize (fd.toNat * 3 / 2)
  let _ ← m.context fd
  m.addEvent caller fd event cb ctl

/-- `delEvent`, `cancelEvent` and `cancelALL` begin alike: nothing is done beyond the table. -/
def inTable (m : IOManager σ φ κ) (fd : Int) (call : Except IoFault (Bool × IOManager σ φ κ)) :
    Except IoFault (Bool × IOManager σ φ κ) :=
  if sizeInt m.fdContexts.length ≤ fd then .ok (false, m)
  else do
    let _ ← m.context fd
    call

end IOManager

/-! ### Calls -/

structure Tables (γ σ φ κ : Type) where
  fdManager : FdManager γ
  ioManager : IOManager σ φ κ

inductive TableCall (γ σ φ κ : Type) where
  | get (fd : Int) (auto_create : Bool) (ctx : γ)
  | del (fd : Int)
  | addEvent (caller : Caller σ φ) (fd : Int) (event : Event) (cb : Option κ) (ctl : Bool)
  | delEvent (fd : Int) (event : Event) (ctl : Bool)
  | cancelEvent (fd : Int) (event : Event) (ctl : Bool)
  | cancelALL (fd : Int) (ctl : Bool)

namespace Tables

variable {γ σ φ κ : Type}

def fd : TableCall γ σ φ κ → Int
  | .get fd _ _ | .del fd | .addEvent _ fd _ _ _ | .delEvent fd _ _ | .cancelEvent fd _ _
  | .cancelALL fd _ => fd

def start : Tables γ σ φ κ := ⟨.create, .create⟩

def step (s : Tables γ σ φ κ) : TableCall γ σ φ κ → Except IoFault (Tables γ σ φ κ)
  | .get fd auto_create ctx => do
    let (_, fdManager) ← s.fdManager.get fd auto_create ctx
    return { s with fdManager := fdManager }
  | .del fd => do return { s with fdManager := ← s.fdManager.del fd }
  | .addEvent caller fd event cb ctl => do
    let (_, ioManager) ← s.ioManager.addEventInt caller fd event cb ctl
    return { s with ioManager := ioManager }
  | .delEvent fd event ctl => do
    let (_, ioManager) ← s.ioManager.inTable fd (s.ioManager.delEvent fd event ctl)
    return { s with ioManager := ioManager }
  | .cancelEvent fd event ctl => do
    let (_, ioManager) ← s.ioManager.inTable fd (s.ioManager.cancelEvent fd event ctl)
    return { s with ioManager := ioManager }
  | .cancelALL fd ctl => do
    let (_, ioManager) ← s.ioManager.inTable fd (s.ioManager.cancelALL fd ctl)
    return { s with ioManager := ioManager }

/-- What a call does to the context of `fd`. -/
def use (fd : Int) : TableCall γ σ φ κ → Use γ
  | .get fd' true ctx => if fd' = fd then .put ctx else .skip
  | .del fd' => if fd' = fd then .erase else .skip
  | _ => .skip

/-- The sizes are values of `int`. -/
structure Fits (s : Tables γ σ φ κ) : Prop where
  datas : s.fdManager.datas.length < 2 ^ 31
  contexts : s.ioManager.fdContexts.length < 2 ^ 31

instance (s : Tables γ σ φ κ) : Decidable s.Fits :=
  decidable_of_iff (s.fdManager.datas.length < 2 ^ 31 ∧ s.ioManager.fdContexts.length < 2 ^ 31)
    ⟨fun fits => ⟨fits.1, fits.2⟩, fun fits => ⟨fits.datas, fits.contexts⟩⟩

/-- The call is made with a descriptor, on tables whose sizes fit. -/
def Ok (s : Tables γ σ φ κ) (call : TableCall γ σ φ κ) : Prop := 0 ≤ fd call ∧ s.Fits

instance (s : Tables γ σ φ κ) (call : TableCall γ σ φ κ) : Decidable (Ok s call) :=
  inferInstanceAs (Decidable (_ ∧ _))

end Tables

/-! ### Comparisons -/

theorem sizeInt_eq {size : Nat} (fits : size < 2 ^ 31) : sizeInt size = size := by
  unfold sizeInt
  rw [Int.bmod_eq_of_le] <;> omega

/-- No vector is indexed outside its bounds. -/
def Inside (fault : IoFault) : Prop := fault ≠ .outOfBounds

namespace FdManager

variable {γ : Type} {m : FdManager γ} {fd : Int}

/-- The context of a descriptor; a vector that is too short has none. -/
def slot (m : FdManager γ) (fd : Int) : Option γ := m.datas[fd.toNat]?.join

theorem index_eq (descriptor : 0 ≤ fd) (inside : fd < m.datas.length) :
    m.index fd = .ok (m.slot fd) := by
  rw [index, if_neg (by omega), slot, List.getElem?_eq_getElem (by omega)]
  rfl

theorem slot_outside (outside : (m.datas.length : Int) ≤ fd) : m.slot fd = none := by
  rw [slot, List.getElem?_eq_none (by omega)]
  rfl

theorem slot_resize {size : Nat} (grows : m.datas.length ≤ size) (fd : Int) :
    (m.resize size).slot fd = m.slot fd := by
  rw [slot, slot, resize, List.take_of_length_le grows]
  by_cases old : fd.toNat < m.datas.length
  · rw [List.getElem?_append_left old]
  · have absent : m.datas[fd.toNat]? = none := List.getElem?_eq_none (by omega)
    rw [List.getElem?_append_right (by omega), List.getElem?_replicate, absent]
    split <;> rfl

theorem length_resize {size : Nat} (grows : m.datas.length ≤ size) :
    (m.resize size).datas.length = size := by
  rw [resize, List.take_of_length_le grows, List.length_append, List.length_replicate]
  omega

theorem assign_eq (descriptor : 0 ≤ fd) (inside : fd < m.datas.length) (ctx : Option γ) :
    ∃ m', m.assign fd ctx = .ok m' ∧ m'.datas.length = m.datas.length ∧
      ∀ fd', 0 ≤ fd' → m'.slot fd' = if fd = fd' then ctx else m.slot fd' := by
  refine ⟨⟨m.datas.set fd.toNat ctx⟩, ?_, List.length_set, fun fd' descriptor' => ?_⟩
  · rw [assign, index_eq descriptor inside]
    rfl
  · rw [slot, slot, List.getElem?_set]
    by_cases same : fd = fd'
    · subst same
      rw [if_pos rfl, if_pos rfl, if_pos (by omega)]
      rfl
    · rw [if_neg (by omega), if_neg same]

variable (descriptor : 0 ≤ fd) (large : 64 ≤ m.datas.length) (fits : m.datas.length < 2 ^ 31)

/-- What a call makes of the vector: it does not shrink, and only the entry of `fd` changes. -/
structure Changes (m m' : FdManager γ) (fd : Int) (slot : Option γ) : Prop where
  large : 64 ≤ m'.datas.length
  here : m'.slot fd = slot
  others : ∀ fd', 0 ≤ fd' → fd' ≠ fd → m'.slot fd' = m.slot fd'

include descriptor large fits

theorem store_eq (ctx : γ) :
    ∃ m', m.store fd ctx = .ok (some ctx, m') ∧ Changes m m' fd (some ctx) := by
  obtain ⟨grown, made, inside, longer, same⟩ : ∃ grown : FdManager γ,
      (if fd ≥ sizeInt m.datas.length then m.resize (fd.toNat * 3 / 2) else m) = grown ∧
        fd < grown.datas.length ∧ 64 ≤ grown.datas.length ∧
        ∀ fd', grown.slot fd' = m.slot fd' := by
    rw [sizeInt_eq fits]
    split
    case isTrue outside =>
      -- `fd * 1.5` exceeds `fd` from 2 on, and the vector never has fewer than 64 entries
      have grows : m.datas.length ≤ fd.toNat * 3 / 2 := by omega
      refine ⟨_, rfl, ?_, ?_, slot_resize grows⟩ <;> rw [length_resize grows] <;> omega
    case isFalse inside => exact ⟨m, rfl, by omega, large, fun _ => rfl⟩
  obtain ⟨m', stored, length, slots⟩ := assign_eq descriptor inside (some ctx)
  refine ⟨m', ?_, by omega, ?_, fun fd' descriptor' other => ?_⟩
  · rw [store, made]
    show (grown.assign fd (some ctx) >>= fun m => pure (some ctx, m)) = _
    rw [stored]
    rfl
  · rw [slots fd descriptor, if_pos rfl]
  · rw [slots fd' descriptor', if_neg (Ne.symm other), same]

/-- `get` returns the context of the descriptor, or makes it. -/
theorem get_eq (auto_create : Bool) (ctx : γ) :
    ∃ m', m.get fd auto_create ctx = .ok (m'.slot fd, m') ∧
      Changes m m' fd (if auto_create then Use.apply (m.slot fd) (.put ctx) else m.slot fd) := by
  obtain ⟨stored, made, changes⟩ := store_eq descriptor large fits ctx
  have unchanged : Changes m m fd (m.slot fd) := ⟨large, rfl, fun _ _ _ => rfl⟩
  rw [get, sizeInt_eq fits]
  split
  case isTrue outside =>
    have empty := slot_outside outside
    cases auto_create with
    | false => exact ⟨m, by rw [if_pos rfl, empty], unchanged⟩
    | true =>
      refine ⟨stored, by rw [if_neg (by decide), made, changes.here], ?_⟩
      rw [empty]
      exact changes
  case isFalse inside =>
    rw [index_eq descriptor (by omega)]
    -- a context that is there is returned, whatever `auto_create` says
    cases found : m.slot fd with
    | some old =>
      refine ⟨m, by rw [found]; rfl, ?_⟩
      rw [found] at unchanged
      cases auto_create <;> exact unchanged
    | none =>
      cases auto_create with
      | false => exact ⟨m, by rw [found]; rfl, found ▸ unchanged⟩
      | true => exact ⟨stored, by rw [changes.here]; exact made, changes⟩

omit large in
/-- `get` without a new context only reads. -/
theorem get_false (unused : γ) : m.get fd false unused = .ok (m.slot fd, m) := by
  rw [get, sizeInt_eq fits]
  split
  case isTrue outside => rw [if_pos rfl, slot_outside outside]
  case isFalse inside =>
    rw [index_eq descriptor (by omega)]
    cases found : m.slot fd <;> rfl

theorem del_eq : ∃ m', m.del fd = .ok m' ∧ Changes m m' fd none := by
  rw [del, sizeInt_eq fits]
  split
  case isTrue outside => exact ⟨m, rfl, large, slot_outside outside, fun _ _ _ => rfl⟩
  case isFalse inside =>
    obtain ⟨m', stored, length, slots⟩ := @assign_eq γ m fd descriptor (by omega) none
    refine ⟨m', stored, by omega, ?_, fun fd' descriptor' other => ?_⟩
    · rw [slots fd descriptor, if_pos rfl]
    · rw [slots fd' descriptor', if_neg (Ne.symm other)]

end FdManager

/-! ### The event table -/

namespace IOManager

variable {σ φ κ : Type} {m : IOManager σ φ κ} {fd : Int}

/-- The calls that do not grow the table keep its size. -/
def SameSize (m : IOManager σ φ κ) (m' : IOManager σ φ κ) : Prop :=
  m'.fdContexts.length = m.fdContexts.length

theorem context_yields (descriptor : 0 ≤ fd) (inside : fd < m.fdContexts.length) :
    Yields Inside (fun _ => True) (m.context fd) := by
  rw [context, if_neg (by omega), List.getElem?_eq_getElem (by omega)]
  trivial

theorem triggerEvent_yields (ctx : FdContext σ φ κ) (event : Event) :
    Yields Inside (fun _ => True) (ctx.triggerEvent event) := by
  unfold FdContext.triggerEvent
  split
  · exact nofun
  · dsimp only
    split
    · exact nofun
    · split <;> trivial

theorem trigger_yields (descriptor : 0 ≤ fd) (inside : fd < m.fdContexts.length) (event : Event) :
    Yields Inside (SameSize m) (m.trigger fd event) := by
  apply (context_yields descriptor inside).bind
  intro ctx _
  apply (triggerEvent_yields ctx event).bind
  intro triggered _
  exact List.length_set

theorem triggerIf_yields (descriptor : 0 ≤ fd) (inside : fd < m.fdContexts.length) (event : Event)
    (mask : BitVec 32) : Yields Inside (SameSize m) (m.triggerIf fd event mask) := by
  rw [triggerIf]
  split
  · exact trigger_yields descriptor inside event
  · exact (rfl : m.fdContexts.length = _)

theorem delEvent_yields (descriptor : 0 ≤ fd) (inside : fd < m.fdContexts.length) (event : Event)
    (ctl : Bool) : Yields Inside (fun r => SameSize m r.2) (m.delEvent fd event ctl) := by
  rw [delEvent, if_neg (by omega)]
  apply (context_yields descriptor inside).bind
  intro ctx _
  split
  · exact (rfl : m.fdContexts.length = _)
  · split
    · exact (rfl : m.fdContexts.length = _)
    · exact List.length_set

theorem cancelEvent_yields (descriptor : 0 ≤ fd) (inside : fd < m.fdContexts.length)
    (event : Event) (ctl : Bool) :
    Yields Inside (fun r => SameSize m r.2) (m.cancelEvent fd event ctl) := by
  rw [cancelEvent, if_neg (by omega)]
  apply (context_yields descriptor inside).bind
  intro ctx _
  split
  · exact (rfl : m.fdContexts.length = _)
  · split
    · exact (rfl : m.fdContexts.length = _)
    · apply (trigger_yields descriptor inside event).bind
      intro m' same
      exact same

theorem cancelALL_yields (descriptor : 0 ≤ fd) (inside : fd < m.fdContexts.length) (ctl : Bool) :
    Yields Inside (fun r => SameSize m r.2) (m.cancelALL fd ctl) := by
  rw [cancelALL, if_neg (by omega)]
  apply (context_yields descriptor inside).bind
  intro ctx _
  split
  · exact (rfl : m.fdContexts.length = _)
  · split
    · exact (rfl : m.fdContexts.length = _)
    · -- the context is looked up again after each event, in a table of the same size
      apply (triggerIf_yields descriptor inside .read ctx.events).bind
      intro m₁ first
      have inside₁ : fd < m₁.fdContexts.length := first ▸ inside
      apply (context_yields descriptor inside₁).bind
      intro ctx₁ _
      apply (triggerIf_yields descriptor inside₁ .write ctx₁.events).bind
      intro m₂ second
      have inside₂ : fd < m₂.fdContexts.length := second ▸ inside₁
      apply (context_yields descriptor inside₂).bind
      intro ctx₂ _
      split
      · exact second.trans first
      · exact nofun

theorem addEvent_yields (caller : Caller σ φ) (descriptor : 0 ≤ fd)
    (inside : fd < m.fdContexts.length) (event : Event) (cb : Option κ) (ctl : Bool) :
    Yields Inside (fun r => SameSize m r.2) (m.addEvent caller fd event cb ctl) := by
  unfold addEvent
  dsimp only
  rw [if_pos (show (m.fdContexts.length : Int) > fd by omega)]
  apply (context_yields descriptor inside).bind
  intro ctx _
  split
  · exact nofun
  · split
    · exact (rfl : m.fdContexts.length = _)
    · split
      · exact nofun
      · split
        · exact nofun
        · exact List.length_set

/-- The table as `addEventInt` finds it after growing it where needed. -/
theorem grown_yields (descriptor : 0 ≤ fd) (large : 32 ≤ m.fdContexts.length)
    (fits : m.fdContexts.length < 2 ^ 31) :
    ∃ g : IOManager σ φ κ, (if sizeInt m.fdContexts.length > fd then m
        else m.contextResize (fd.toNat * 3 / 2)) = g ∧
      fd < g.fdContexts.length ∧ 32 ≤ g.fdContexts.length := by
  rw [sizeInt_eq fits]
  split
  case isTrue inside => exact ⟨m, rfl, inside, large⟩
  case isFalse outside =>
    have length : (m.contextResize (fd.toNat * 3 / 2)).fdContexts.length = fd.toNat * 3 / 2 := by
      rw [contextResize, List.length_map, List.length_range]
    exact ⟨_, rfl, by omega, by omega⟩

theorem addEventInt_yields (caller : Caller σ φ) (descriptor : 0 ≤ fd)
    (large : 32 ≤ m.fdContexts.length) (fits : m.fdContexts.length < 2 ^ 31) (event : Event)
    (cb : Option κ) (ctl : Bool) :
    Yields Inside (fun r => 32 ≤ r.2.fdContexts.length)
      (m.addEventInt caller fd event cb ctl) := by
  obtain ⟨g, made, inside, large'⟩ := grown_yields descriptor large fits
  unfold addEventInt
  dsimp only
  rw [made]
  apply (context_yields descriptor inside).bind
  intro ctx _
  apply (addEvent_yields caller descriptor inside event cb ctl).mono
  intro r same
  exact same ▸ large'

theorem inTable_yields (descriptor : 0 ≤ fd) (large : 32 ≤ m.fdContexts.length)
    (fits : m.fdContexts.length < 2 ^ 31) {call : Except IoFault (Bool × IOManager σ φ κ)}
    (yields : fd < m.fdContexts.length → Yields Inside (fun r => SameSize m r.2) call) :
    Yields Inside (fun r => 32 ≤ r.2.fdContexts.length) (m.inTable fd call) := by
  rw [inTable, sizeInt_eq fits]
  split
  case isTrue outside => exact large
  case isFalse inside =>
    apply (context_yields descriptor (by omega)).bind
    intro ctx _
    apply (yields (by omega)).mono
    intro r same
    exact same ▸ large

end IOManager

/-! ### Runs -/

namespace Tables

variable {γ σ φ κ : Type} {s : Tables γ σ φ κ} {call : TableCall γ σ φ κ}

/-- The tables never become smaller than the constructors make them. -/
structure Large (s : Tables γ σ φ κ) : Prop where
  datas : 64 ≤ s.fdManager.datas.length
  contexts : 32 ≤ s.ioManager.fdContexts.length

/-- The sizes the constructors give. -/
theorem start_sizes : (start : Tables γ σ φ κ).fdManager.datas.length = 64 ∧
    (start : Tables γ σ φ κ).ioManager.fdContexts.length = 32 := by
  refine ⟨List.length_replicate, ?_⟩
  rw [start, IOManager.create, IOManager.contextResize, List.length_map, List.length_range]

theorem start_large : (start : Tables γ σ φ κ).Large := by
  obtain ⟨datas, contexts⟩ := @start_sizes γ σ φ κ
  exact ⟨Nat.le_of_eq datas.symm, Nat.le_of_eq contexts.symm⟩

theorem start_fits : (start : Tables γ σ φ κ).Fits := by
  obtain ⟨datas, contexts⟩ := @start_sizes γ σ φ κ
  exact ⟨by omega, by omega⟩

/-- A call of `FdManager` that changes the slot of its descriptor. -/
theorem step_changes {m : FdManager γ} {fd : Int} {slot : Option γ} (large : s.Large)
    (changes : FdManager.Changes s.fdManager m fd slot)
    (used : slot = (use fd call).apply (s.fdManager.slot fd))
    (others : ∀ fd', fd' ≠ fd → use fd' call = .skip) :
    ({ s with fdManager := m } : Tables γ σ φ κ).Large ∧ ∀ fd', 0 ≤ fd' →
      m.slot fd' = (use fd' call).apply (s.fdManager.slot fd') := by
  refine ⟨⟨changes.large, large.contexts⟩, fun fd' descriptor' => ?_⟩
  -- the slot of the call, and any other
  by_cases same : fd' = fd
  · subst same
    rw [changes.here, used]
  · rw [changes.others fd' descriptor' same, others fd' same, Use.apply_skip]

/-- A call of `IOManager` leaves the other table alone. -/
theorem step_ioManager {α : Type} (large : s.Large) {result : Except IoFault (α × IOManager σ φ κ)}
    (silent : ∀ fd', use fd' call = .skip)
    (yields : Yields Inside (fun r => 32 ≤ r.2.fdContexts.length) result) :
    Yields Inside (fun s' : Tables γ σ φ κ => s'.Large ∧ ∀ fd', 0 ≤ fd' →
      s'.fdManager.slot fd' = (use fd' call).apply (s.fdManager.slot fd'))
      (do let (_, ioManager) ← result; return { s with ioManager := ioManager }) := by
  apply yields.bind
  intro r contexts
  exact ⟨⟨large.datas, contexts⟩, fun fd' _ => by rw [silent, Use.apply_skip]⟩

/-- What one call does: it indexes inside the tables, and puts into the slot of a descriptor or
erases it. -/
theorem step_yields (large : s.Large) (ok : Ok s call) :
    Yields Inside (fun s' => s'.Large ∧ ∀ fd', 0 ≤ fd' →
      s'.fdManager.slot fd' = (use fd' call).apply (s.fdManager.slot fd')) (step s call) := by
  obtain ⟨descriptor, fits⟩ := ok
  cases call with
  | get fd auto_create ctx =>
    obtain ⟨m, made, changes⟩ :=
      @FdManager.get_eq γ s.fdManager fd descriptor large.datas fits.datas auto_create ctx
    have stepped : step s (.get fd auto_create ctx) = .ok { s with fdManager := m } := by
      rw [step]
      show (s.fdManager.get fd auto_create ctx >>= _) = _
      rw [made]
      rfl
    rw [stepped]
    apply step_changes large changes
    · cases auto_create with
      | true =>
        have here : use fd (.get fd true ctx : TableCall γ σ φ κ) = .put ctx := if_pos rfl
        rw [here]
        rfl
      | false => exact (Use.apply_skip _).symm
    · intro fd' other
      cases auto_create with
      | true => exact if_neg (Ne.symm other)
      | false => rfl
  | del fd =>
    obtain ⟨m, erased, changes⟩ :=
      @FdManager.del_eq γ s.fdManager fd descriptor large.datas fits.datas
    have stepped : step s (.del fd) = .ok { s with fdManager := m } := by
      rw [step]
      show (s.fdManager.del fd >>= _) = _
      rw [erased]
      rfl
    rw [stepped]
    apply step_changes large changes
    · rw [use, if_pos rfl, Use.apply_erase]
    · exact fun fd' other => if_neg (Ne.symm other)
  | addEvent caller fd event cb ctl =>
    exact step_ioManager large (fun _ => rfl)
      (IOManager.addEventInt_yields caller descriptor large.contexts fits.contexts event cb ctl)
  | delEvent fd event ctl =>
    exact step_ioManager large (fun _ => rfl)
      (IOManager.inTable_yields descriptor large.contexts fits.contexts fun inside =>
        IOManager.delEvent_yields descriptor inside event ctl)
  | cancelEvent fd event ctl =>
    exact step_ioManager large (fun _ => rfl)
      (IOManager.inTable_yields descriptor large.contexts fits.contexts fun inside =>
        IOManager.cancelEvent_yields descriptor inside event ctl)
  | cancelALL fd ctl =>
    exact step_ioManager large (fun _ => rfl)
      (IOManager.inTable_yields descriptor large.contexts fits.contexts fun inside =>
        IOManager.cancelALL_yields descriptor inside ctl)

theorem step_ok {s' : Tables γ σ φ κ} (large : s.Large) (ok : Ok s call)
    (stepped : step s call = .ok s') :
    s'.Large ∧ ∀ fd', 0 ≤ fd' →
      s'.fdManager.slot fd' = (use fd' call).apply (s.fdManager.slot fd') := by
  have yields := step_yields large ok
  rw [stepped] at yields
  exact yields

/-- Over a run, a slot is used call by call. -/
theorem calls_slot {calls : List (TableCall γ σ φ κ)} {s' : Tables γ σ φ κ} (large : s.Large)
    (legal : Legal step Ok s calls) (ran : Run.calls step s calls = .ok s') {fd : Int}
    (descriptor : 0 ≤ fd) :
    s'.fdManager.slot fd = (calls.map (use fd)).foldl Use.apply (s.fdManager.slot fd) := by
  -- `Large` is what a call needs of the state besides being legal
  induction calls generalizing s with
  | nil =>
    cases ran
    rfl
  | cons call rest ih =>
    obtain ⟨ok, later⟩ := legal
    simp only [Run.calls] at ran
    split at ran
    next mid stepped =>
      obtain ⟨large', slots⟩ := step_ok large ok stepped
      rw [List.map_cons, List.foldl_cons, ← slots fd descriptor]
      exact ih large' (later mid stepped) ran
    next => cases ran

/-- The call at `i` made the context of `fd` by `get(fd, true)`: earlier ones were removed by
`del(fd)` before, and it was not removed since. -/
structure Makes (calls : List (TableCall γ σ φ κ)) (fd : Int) (i : Nat) (ctx : γ) : Prop where
  made : calls[i]? = some (.get fd true ctx)
  free : ∀ j < i, ∀ ctx', calls[j]? = some (.get fd true ctx') →
    ∃ k, j < k ∧ k < i ∧ calls[k]? = some (.del fd)
  kept : ∀ j, i < j → calls[j]? ≠ some (.del fd)

theorem use_eq_put {fd : Int} {ctx : γ} : use fd call = .put ctx ↔ call = .get fd true ctx := by
  constructor
  · intro puts
    cases call with
    | get fd' auto_create ctx' =>
      cases auto_create with
      | false => cases puts
      | true =>
        rw [use] at puts
        split at puts
        next same =>
          cases puts
          rw [same]
        next => cases puts
    | del fd' =>
      rw [use] at puts
      split at puts <;> cases puts
    | addEvent | delEvent | cancelEvent | cancelALL => cases puts
  · rintro rfl
    rw [use, if_pos rfl]

theorem use_eq_erase {fd : Int} : use fd call = .erase ↔ call = .del fd := by
  constructor
  · intro erases
    cases call with
    | get fd' auto_create ctx' =>
      cases auto_create with
      | false => cases erases
      | true =>
        rw [use] at erases
        split at erases <;> cases erases
    | del fd' =>
      rw [use] at erases
      split at erases
      next same => rw [same]
      next => cases erases
    | addEvent | delEvent | cancelEvent | cancelALL => cases erases
  · rintro rfl
    rw [use, if_pos rfl]

theorem makes_iff {calls : List (TableCall γ σ φ κ)} {fd : Int} {i : Nat} {ctx : γ} :
    Makes calls fd i ctx ↔ Fills (calls.map (use fd)) i ctx := by
  have puts : ∀ (j : Nat) (ctx' : γ), (calls.map (use fd))[j]? = some (Use.put ctx') ↔
      calls[j]? = some (TableCall.get fd true ctx') := by
    intro j ctx'
    simp only [List.getElem?_map, Option.map_eq_some_iff, use_eq_put, exists_eq_right]
  have erases : ∀ j : Nat,
      (calls.map (use fd))[j]? = some Use.erase ↔ calls[j]? = some (TableCall.del fd) := by
    intro j
    simp only [List.getElem?_map, Option.map_eq_some_iff, use_eq_erase, exists_eq_right]
  constructor
  · rintro ⟨made, free, kept⟩
    refine ⟨(puts i ctx).mpr made, fun j before ctx' found => ?_, fun j behind found => ?_⟩
    · obtain ⟨k, after, below, erased⟩ := free j before ctx' ((puts j ctx').mp found)
      exact ⟨k, after, below, (erases k).mpr erased⟩
    · exact kept j behind ((erases j).mp found)
  · rintro ⟨made, free, kept⟩
    refine ⟨(puts i ctx).mp made, fun j before ctx' found => ?_, fun j behind found => ?_⟩
    · obtain ⟨k, after, below, erased⟩ := free j before ctx' ((puts j ctx').mpr found)
      exact ⟨k, after, below, (erases k).mp erased⟩
    · exact kept j behind ((erases j).mpr found)

/-- The first tables hold no context. -/
theorem slot_start (fd : Int) : (start : Tables γ σ φ κ).fdManager.slot fd = none := by
  rw [start, FdManager.create, FdManager.slot, List.getElem?_replicate]
  split <;> rfl

/-- A negative descriptor passes the comparison, and the vector is indexed with it. -/
theorem negative_faults (fits : s.Fits) (negative : fd call < 0) :
    step s call = .error .outOfBounds := by
  have table : ¬ sizeInt s.fdManager.datas.length ≤ fd call := by
    rw [sizeInt_eq fits.datas]
    omega
  have events : ¬ sizeInt s.ioManager.fdContexts.length ≤ fd call := by
    rw [sizeInt_eq fits.contexts]
    omega
  have index : s.fdManager.index (fd call) = .error .outOfBounds := if_pos negative
  have context : s.ioManager.context (fd call) = .error .outOfBounds := if_pos negative
  have inTable : ∀ result, s.ioManager.inTable (fd call) result = .error .outOfBounds := by
    intro result
    rw [IOManager.inTable, if_neg events, context]
    rfl
  cases call with
  | get fd auto_create ctx =>
    have found : s.fdManager.get fd auto_create ctx = .error .outOfBounds := by
      apply (if_neg table).trans
      exact congrArg (· >>= _) index
    rw [step]
    exact congrArg (· >>= _) found
  | del fd =>
    have found : s.fdManager.del fd = .error .outOfBounds := by
      apply (if_neg table).trans
      exact congrArg (· >>= _) index
    rw [step]
    exact congrArg (· >>= _) found
  | addEvent caller fd event cb ctl =>
    have found : s.ioManager.addEventInt caller fd event cb ctl = .error .outOfBounds := by
      unfold IOManager.addEventInt
      dsimp only
      have grown : sizeInt s.ioManager.fdContexts.length > fd := Int.not_le.mp events
      rw [if_pos grown]
      exact congrArg (· >>= _) context
    rw [step]
    exact congrArg (· >>= _) found
  | delEvent | cancelEvent | cancelALL =>
    rw [step]
    exact congrArg (· >>= _) (inTable _)

/-- A run whose calls are made with descriptors, on tables whose sizes fit, indexes inside the
tables, and `get` returns the context that the history tells. -/
theorem calls_tables {calls : List (TableCall γ σ φ κ)} (legal : Legal step Ok start calls) :
    Run.calls step start calls ≠ .error .outOfBounds ∧
    ∀ s, Run.calls step start calls = .ok s → s.Fits → ∀ fd, 0 ≤ fd → ∀ unused,
      ∃ found, s.fdManager.get fd false unused = .ok (found, s.fdManager) ∧
        ∀ ctx, found = some ctx ↔ ∃ i, Makes calls fd i ctx := by
  have preserved : ∀ (s : Tables γ σ φ κ) call s', s.Large → Ok s call →
      step s call = .ok s' → s'.Large :=
    fun _ _ _ large ok stepped => (step_ok large ok stepped).1
  constructor
  · intro ran
    have faults : ∀ (s : Tables γ σ φ κ) call fault, s.Large → Ok s call →
        step s call = .error fault → Inside fault := by
      intro s call fault large ok stepped
      have yields := step_yields large ok
      rw [stepped] at yields
      exact yields
    exact calls_fault Large preserved faults start_large legal ran rfl
  · intro s ran fits fd descriptor unused
    have large : s.Large := legal_invariant Large preserved start_large legal ran
    refine ⟨s.fdManager.slot fd, FdManager.get_false descriptor fits.datas unused, fun ctx => ?_⟩
    -- the slot is empty at the start, so it holds what its uses leave
    have history : s.fdManager.slot fd = held (calls.map (use fd)) := by
      rw [calls_slot start_large legal ran descriptor, slot_start]
      rfl
    rw [history, held_eq_some_iff]
    simp only [makes_iff]

/-- `close` on a descriptor that `socket` failed to make reads before the first entry. -/
theorem calls_negative :
    Run.calls step (start : Tables Nat Unit Unit Unit) [.get (-1) false 0] =
      .error .outOfBounds := by
  have fits : (start : Tables Nat Unit Unit Unit).Fits := start_fits
  rw [Run.calls, negative_faults fits (by decide)]

/-- The context of 70 is made anew after `del`, in a table that has grown. -/
theorem calls_tables_grown :
    let calls : List (TableCall Nat Unit Unit Unit) :=
      [.get 70 true 1, .get 70 true 2, .del 70, .get 70 true 4]
    Run.calls step start calls ≠ .error .outOfBounds ∧
    ∀ s, Run.calls step start calls = .ok s → s.Fits → ∀ fd, 0 ≤ fd → ∀ unused,
      ∃ found, s.fdManager.get fd false unused = .ok (found, s.fdManager) ∧
        ∀ ctx, found = some ctx ↔ ∃ i, Makes calls fd i ctx :=
  calls_tables (by decide)

end Tables

end Dwframe
