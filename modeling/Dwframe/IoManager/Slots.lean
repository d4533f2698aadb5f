import Dwframe.IoManager.Model
import Mathlib.Data.List.Perm.Basic
import Mathlib.Tactic.Common

/-!
# One descriptor: bits against slots

`Consistent` says that a descriptor's event bits and its waiter slots tell the same
story; `waiters` is that story as a list. A registration adds one waiter, a
deletion or a trigger removes exactly the one of its event. The table is a list of
descriptors, and `waiting` collects the waiters of all of them.
-/
namespace Dwframe

variable {σ φ κ : Type}

namespace EventContext

/-- A scheduler and exactly one of callback and fiber. -/
def Held (slot : EventContext σ φ κ) : Prop :=
  slot.scheduler.isSome = true ∧ (slot.cb.isSome = true ↔ slot.fiber.isNone = true)

def Empty (slot : EventContext σ φ κ) : Prop :=
  slot.scheduler = none ∧ slot.fiber = none ∧ slot.cb = none

/-- The waiter a slot holds, as `schedule()` would receive it. -/
def waiter (slot : EventContext σ φ κ) : Option (σ × Task φ κ) :=
  match slot.scheduler, slot.cb, slot.fiber with
  | some s, some c, _ => some (s, .cb c)
  | some s, none, some f => some (s, .fiber f)
  | _, _, _ => none

theorem Empty.eq {slot : EventContext σ φ κ} (empty : slot.Empty) : slot = {} := by
  obtain ⟨scheduler, fiber, cb⟩ := empty
  cases slot
  simp_all

theorem empty_default : ({} : EventContext σ φ κ).Empty := ⟨rfl, rfl, rfl⟩

/-- The two shapes of a held slot. -/
theorem Held.cases {slot : EventContext σ φ κ} (held : slot.Held) :
    (∃ s c, slot = { scheduler := some s, fiber := none, cb := some c }) ∨
      ∃ s f, slot = { scheduler := some s, fiber := some f, cb := none } := by
  obtain ⟨scheduler, fiber, cb⟩ := slot
  obtain ⟨some_scheduler, one⟩ := held
  -- of the eight shapes only these two satisfy `Held`
  cases scheduler <;> cases fiber <;> cases cb <;> simp_all

end EventContext

namespace Event

/-- The event sets a descriptor can have registered. -/
def Mask (events : BitVec 32) : Prop := events = 0 ∨ events = 1 ∨ events = 4 ∨ events = 5

theorem mask_add {events : BitVec 32} (mask : Mask events) (event : Event) :
    Mask (events ||| event.bit) ∧
      ∀ e : Event, e.isIn (events ||| event.bit) = (e.isIn events || decide (e = event)) := by
  rcases mask with rfl | rfl | rfl | rfl <;> cases event <;>
    exact ⟨by unfold Mask; decide, by intro e; cases e <;> decide⟩

theorem mask_remove {events : BitVec 32} (mask : Mask events) (event : Event) :
    Mask (events &&& ~~~event.bit) ∧
      ∀ e : Event, e.isIn (events &&& ~~~event.bit) = (e.isIn events && !decide (e = event)) := by
  rcases mask with rfl | rfl | rfl | rfl <;> cases event <;>
    exact ⟨by unfold Mask; decide, by intro e; cases e <;> decide⟩

theorem mask_eq_zero {events : BitVec 32} (mask : Mask events) :
    events = 0 ↔ read.isIn events = false ∧ write.isIn events = false := by
  rcases mask with rfl | rfl | rfl | rfl <;> decide

theorem mask_disjoint {events other : BitVec 32} (mask : Mask events) (mask' : Mask other) :
    events &&& other = 0 ↔
      ∀ event : Event, event.isIn events = true → event.isIn other = false := by
  have both : (∀ event : Event, event.isIn events = true → event.isIn other = false) ↔
      (read.isIn events = true → read.isIn other = false) ∧
        (write.isIn events = true → write.isIn other = false) :=
    ⟨fun each => ⟨each read, each write⟩, fun ⟨r, w⟩ event => by cases event <;> assumption⟩
  rw [both]
  rcases mask with rfl | rfl | rfl | rfl <;> rcases mask' with rfl | rfl | rfl | rfl <;> decide

/-- A registered set never has the error bits, so `idle` never widens a report. -/
theorem mask_no_error {events : BitVec 32} (mask : Mask events) :
    events &&& (EPOLLERR ||| EPOLLHUP) = 0 := by
  rcases mask with rfl | rfl | rfl | rfl <;> decide

end Event

namespace FdContext

@[simp] theorem getContext_setContext_self (ctx : FdContext σ φ κ) (event : Event)
    (slot : EventContext σ φ κ) : (ctx.setContext event slot).getContext event = slot := by
  cases event <;> rfl

theorem getContext_setContext_ne (ctx : FdContext σ φ κ) {event other : Event}
    (differ : other ≠ event) (slot : EventContext σ φ κ) :
    (ctx.setContext event slot).getContext other = ctx.getContext other := by
  cases event <;> cases other <;> first | rfl | contradiction

@[simp] theorem setContext_events (ctx : FdContext σ φ κ) (event : Event)
    (slot : EventContext σ φ κ) : (ctx.setContext event slot).events = ctx.events := by
  cases event <;> rfl

@[simp] theorem getContext_events (ctx : FdContext σ φ κ) (events : BitVec 32) (event : Event) :
    ({ ctx with events := events } : FdContext σ φ κ).getContext event = ctx.getContext event := by
  cases event <;> rfl

structure Consistent (ctx : FdContext σ φ κ) : Prop where
  mask : Event.Mask ctx.events
  held : ∀ event : Event, event.isIn ctx.events = true → (ctx.getContext event).Held
  empty : ∀ event : Event, event.isIn ctx.events = false → (ctx.getContext event).Empty

/-- The waiter registered for an event. -/
def registered (ctx : FdContext σ φ κ) (event : Event) : Option (σ × Task φ κ) :=
  (ctx.getContext event).waiter

def waiters (ctx : FdContext σ φ κ) : List (σ × Task φ κ) :=
  (ctx.registered .read).toList ++ (ctx.registered .write).toList

/-- How many event bits are set. -/
def bits (ctx : FdContext σ φ κ) : Nat :=
  (Event.read.isIn ctx.events).toNat + (Event.write.isIn ctx.events).toNat

theorem fresh_consistent (fd : Nat) : ({ fd := fd } : FdContext σ φ κ).Consistent where
  mask := .inl rfl
  held event set := by cases event <;> simp [Event.isIn, Event.bit] at set
  empty event _ := by cases event <;> exact EventContext.empty_default

namespace Consistent

variable {ctx : FdContext σ φ κ}

/-- A bit is set exactly when its slot holds a waiter. -/
theorem registered_isSome (consistent : ctx.Consistent) (event : Event) :
    (ctx.registered event).isSome = event.isIn ctx.events := by
  unfold registered
  cases set : event.isIn ctx.events with
  | true =>
    rcases (consistent.held event set).cases with ⟨s, c, eq⟩ | ⟨s, f, eq⟩
    · rw [eq]; rfl
    · rw [eq]; rfl
  | false =>
    rw [(consistent.empty event set).eq]
    rfl

theorem bits_eq (consistent : ctx.Consistent) : ctx.bits = ctx.waiters.length := by
  have one : ∀ event : Event,
      (event.isIn ctx.events).toNat = (ctx.registered event).toList.length := by
    intro event
    rw [← consistent.registered_isSome event]
    cases ctx.registered event <;> rfl
  rw [bits, waiters, List.length_append, one .read, one .write]

/-- Writing `slot` for an event that goes with the new bit. -/
theorem set {events : BitVec 32} {event : Event} {slot : EventContext σ φ κ}
    (consistent : ctx.Consistent) (mask : Event.Mask events) (present : Bool)
    (bit : event.isIn events = present)
    (others : ∀ e : Event, e ≠ event → e.isIn events = e.isIn ctx.events)
    (fits : if present then slot.Held else slot.Empty) :
    (({ ctx with events := events } : FdContext σ φ κ).setContext event slot).Consistent where
  mask := by simpa using mask
  held e e_set := by
    rw [setContext_events] at e_set
    by_cases same : e = event
    · subst same
      rw [bit] at e_set
      simpa [e_set] using fits
    · rw [getContext_setContext_ne _ same, getContext_events]
      exact consistent.held e (by rw [← others e same]; exact e_set)
  empty e e_clear := by
    rw [setContext_events] at e_clear
    by_cases same : e = event
    · subst same
      rw [bit] at e_clear
      simpa [e_clear] using fits
    · rw [getContext_setContext_ne _ same, getContext_events]
      exact consistent.empty e (by rw [← others e same]; exact e_clear)

theorem register (consistent : ctx.Consistent) (event : Event) {slot : EventContext σ φ κ}
    (held : slot.Held) :
    (({ ctx with events := ctx.events ||| event.bit } : FdContext σ φ κ).setContext event
      slot).Consistent := by
  obtain ⟨mask, bits⟩ := Event.mask_add consistent.mask event
  refine consistent.set mask true (by simp [bits]) ?_ (by simpa using held)
  intro e differ
  simp [bits, differ]

theorem unregister (consistent : ctx.Consistent) (event : Event) :
    (({ ctx with events := ctx.events &&& ~~~event.bit } : FdContext σ φ κ).setContext event
      {}).Consistent := by
  obtain ⟨mask, bits⟩ := Event.mask_remove consistent.mask event
  refine consistent.set mask false (by simp [bits]) ?_
    (by simpa using EventContext.empty_default)
  intro e differ
  simp [bits, differ]

/-- `triggerEvent` on a registered event succeeds, schedules its waiter and leaves the
slot as a deletion would. -/
theorem triggerEvent (consistent : ctx.Consistent) {event : Event}
    (set : event.isIn ctx.events = true) :
    ∃ waiter, ctx.registered event = some waiter ∧
      ctx.triggerEvent event =
        .ok (({ ctx with events := ctx.events &&& ~~~event.bit } : FdContext σ φ κ).setContext
          event {}, [waiter]) := by
  unfold FdContext.triggerEvent registered
  simp only [set, Bool.not_true, Bool.false_eq_true, if_false, getContext_events]
  -- the callback is tested first, but a held slot has only one of the two
  rcases (consistent.held event set).cases with ⟨s, c, eq⟩ | ⟨s, f, eq⟩
  · rw [eq]
    exact ⟨(s, .cb c), rfl, rfl⟩
  · rw [eq]
    exact ⟨(s, .fiber f), rfl, rfl⟩

end Consistent

@[simp] theorem registered_setContext_self (ctx : FdContext σ φ κ) (event : Event)
    (slot : EventContext σ φ κ) : (ctx.setContext event slot).registered event = slot.waiter := by
  simp [registered]

theorem registered_setContext_ne (ctx : FdContext σ φ κ) {event other : Event}
    (differ : other ≠ event) (slot : EventContext σ φ κ) (events : BitVec 32) :
    (({ ctx with events := events } : FdContext σ φ κ).setContext event slot).registered other =
      ctx.registered other := by
  rw [registered, getContext_setContext_ne _ differ, getContext_events, registered]

/-- Filling an empty slot adds its waiter. -/
theorem waiters_register (ctx : FdContext σ φ κ) {event : Event} {slot : EventContext σ φ κ}
    {waiter : σ × Task φ κ} (free : ctx.registered event = none) (holds : slot.waiter = some waiter)
    (events : BitVec 32) :
    (({ ctx with events := events } : FdContext σ φ κ).setContext event slot).waiters.Perm
      (waiter :: ctx.waiters) := by
  cases event with
  | read | write =>
    rw [waiters, waiters, free, registered_setContext_self, holds,
      registered_setContext_ne _ (by decide)]
    simp

/-- Clearing a slot removes its waiter. -/
theorem waiters_unregister (ctx : FdContext σ φ κ) {event : Event} {waiter : σ × Task φ κ}
    (holds : ctx.registered event = some waiter) (events : BitVec 32) :
    ctx.waiters.Perm (waiter ::
      (({ ctx with events := events } : FdContext σ φ κ).setContext event {}).waiters) := by
  cases event with
  | read | write =>
    rw [waiters, waiters, holds, registered_setContext_self,
      registered_setContext_ne _ (by decide)]
    simp [EventContext.waiter]

end FdContext

end Dwframe
