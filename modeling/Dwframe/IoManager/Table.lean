import Dwframe.IoManager.Slots

/-!
# The whole table: what each call does

`slotAt` is the context of a descriptor, empty for one the table has not grown to;
`waiting` lists the waiters of all descriptors. `Consistent` is the invariant of the
table. The effect of a call is one of two relations, `Adds` and `Removes`, each about
one event of one descriptor with everything else unchanged.
-/
namespace Dwframe.IOManager

open scoped List

variable {σ φ κ : Type} {m : IOManager σ φ κ}

def slotAt (m : IOManager σ φ κ) (fd : Nat) : FdContext σ φ κ :=
  (m.fdContexts[fd]?).getD { fd := fd }

def registered (m : IOManager σ φ κ) (fd : Nat) (event : Event) : Option (σ × Task φ κ) :=
  (m.slotAt fd).registered event

def waiting (m : IOManager σ φ κ) : List (σ × Task φ κ) := m.fdContexts.flatMap FdContext.waiters

structure Consistent (m : IOManager σ φ κ) : Prop where
  contexts : ∀ ctx ∈ m.fdContexts, ctx.Consistent
  large : 32 ≤ m.fdContexts.length
  count : m.pendingEventCount = m.waiting.length

/-- `m'` is `m` with `waiter` registered for one more event. -/
structure Adds (m m' : IOManager σ φ κ) (fd : Nat) (event : Event) (waiter : σ × Task φ κ) :
    Prop where
  consistent : m'.Consistent
  free : m.registered fd event = none
  here : m'.registered fd event = some waiter
  others : ∀ fd' event', ¬(fd' = fd ∧ event' = event) →
    m'.registered fd' event' = m.registered fd' event'
  waiting : m'.waiting.Perm (waiter :: m.waiting)
  scheduled : m'.scheduled = m.scheduled

/-- `m'` is `m` without the waiter of one event, `tasks` having been scheduled. -/
structure Removes (m m' : IOManager σ φ κ) (fd : Nat) (event : Event) (waiter : σ × Task φ κ)
    (tasks : List (σ × Task φ κ)) : Prop where
  consistent : m'.Consistent
  here : m.registered fd event = some waiter
  gone : m'.registered fd event = none
  others : ∀ fd' event', ¬(fd' = fd ∧ event' = event) →
    m'.registered fd' event' = m.registered fd' event'
  waiting : m.waiting.Perm (waiter :: m'.waiting)
  scheduled : m'.scheduled = m.scheduled ++ tasks
  size : m'.fdContexts.length = m.fdContexts.length

/-- Replacing one element of a list exchanges its share of a `flatMap`. -/
private theorem flatMap_set_perm {α β : Type} (f : α → List β) (xs : List α) (i : Nat) (x y : α)
    (found : xs[i]? = some x) :
    ((xs.set i y).flatMap f ++ f x).Perm (xs.flatMap f ++ f y) := by
  induction xs generalizing i with
  | nil => simp at found
  | cons z zs ih =>
    cases i with
    -- the element itself: its old share moves behind the rest of the list
    | zero =>
      have same : z = x := by simpa using found
      subst same
      rw [List.set_cons_zero, List.flatMap_cons, List.flatMap_cons]
      calc f y ++ zs.flatMap f ++ f z
        _ ~ f z ++ (f y ++ zs.flatMap f) := List.perm_append_comm
        _ ~ f z ++ (zs.flatMap f ++ f y) := List.perm_append_comm.append_left _
        _ = f z ++ zs.flatMap f ++ f y := (List.append_assoc ..).symm
    | succ i =>
      simp only [List.set_cons_succ, List.flatMap_cons, List.append_assoc]
      exact (ih i (by simpa using found)).append_left _

section Lookup

theorem context_natCast (fd : Nat) :
    m.context (fd : Int) = match m.fdContexts[fd]? with
      | none => .error .outOfBounds
      | some ctx => .ok ctx := by
  have natural : ¬(fd : Int) < 0 := by omega
  cases found : m.fdContexts[fd]? with
  | none => simp [context, natural, found]
  | some ctx => simp [context, natural, found]

theorem slotAt_of_getElem? {fd : Nat} {ctx : FdContext σ φ κ}
    (found : m.fdContexts[fd]? = some ctx) : m.slotAt fd = ctx := by
  simp [slotAt, found]

theorem slotAt_set {fd : Nat} (inside : fd < m.fdContexts.length) (ctx : FdContext σ φ κ)
    (fd' : Nat) : (m.setFd fd ctx).slotAt fd' = if fd' = fd then ctx else m.slotAt fd' := by
  unfold slotAt setFd
  rw [Int.toNat_natCast, List.getElem?_set]
  by_cases same : fd = fd'
  · subst same
    simp [inside]
  · rw [if_neg same, if_neg (Ne.symm same)]

theorem Consistent.slot (consistent : m.Consistent) (fd : Nat) : (m.slotAt fd).Consistent := by
  unfold slotAt
  cases found : m.fdContexts[fd]? with
  | none => exact FdContext.fresh_consistent fd
  | some ctx => exact consistent.contexts ctx (List.mem_of_getElem? found)

/-- A descriptor with an event bit is in the table. -/
theorem inside_of_isIn {fd : Nat} {event : Event} (set : event.isIn (m.slotAt fd).events = true) :
    fd < m.fdContexts.length := by
  by_contra outside
  have fresh : m.slotAt fd = { fd := fd } := by
    rw [slotAt, List.getElem?_eq_none (Nat.le_of_not_lt outside)]
    rfl
  rw [fresh] at set
  cases event <;> simp [Event.isIn, Event.bit] at set

theorem context_inside {fd : Nat} (inside : fd < m.fdContexts.length) :
    m.context (fd : Int) = .ok (m.slotAt fd) := by
  rw [context_natCast, slotAt, List.getElem?_eq_getElem inside]
  rfl

end Lookup

/-- Writing a descriptor's context, for a consistent one with as many waiters as the
new counter says. -/
private theorem setFd_consistent (consistent : m.Consistent) {fd : Nat}
    {ctx : FdContext σ φ κ} (good : ctx.Consistent) {pending : Int} (tasks : List (σ × Task φ κ))
    (count : pending = (m.setFd fd ctx).waiting.length) :
    Consistent { m.setFd fd ctx with pendingEventCount := pending, scheduled := tasks } where
  contexts c member := by
    rcases List.mem_or_eq_of_mem_set member with old | same
    · exact consistent.contexts c old
    · exact same ▸ good
  large := by simpa [setFd] using consistent.large
  count := count

private theorem setFd_waiting {fd : Nat} (inside : fd < m.fdContexts.length)
    (ctx : FdContext σ φ κ) :
    ((m.setFd fd ctx).waiting ++ (m.slotAt fd).waiters).Perm (m.waiting ++ ctx.waiters) := by
  have found : m.fdContexts[fd]? = some (m.slotAt fd) := by
    rw [slotAt, List.getElem?_eq_getElem inside]
    rfl
  have swapped := flatMap_set_perm FdContext.waiters m.fdContexts fd (m.slotAt fd) ctx found
  simpa [waiting, setFd] using swapped

/-- The waiters after one event of one descriptor has been written. -/
private theorem registered_setFd {fd : Nat} (inside : fd < m.fdContexts.length)
    (events : BitVec 32) (event : Event) (slot : EventContext σ φ κ) (fd' : Nat) (event' : Event) :
    ((m.setFd fd (({ m.slotAt fd with events := events }).setContext event slot)).slotAt
        fd').registered event' =
      if fd' = fd ∧ event' = event then slot.waiter else (m.slotAt fd').registered event' := by
  rw [slotAt_set inside]
  by_cases same : fd' = fd
  · subst same
    rw [if_pos rfl]
    by_cases same' : event' = event
    · rw [if_pos ⟨rfl, same'⟩, same', FdContext.registered_setContext_self]
    · rw [if_neg fun both => same' both.2, FdContext.registered_setContext_ne _ same']
  · rw [if_neg same, if_neg fun both => same both.1]

/-- In an exchange of shares, what one share has more the whole has more. -/
private theorem perm_cons_of_exchange {β : Type} {xs ys share share' : List β} {b : β}
    (swapped : (xs ++ share).Perm (ys ++ share')) (one : share'.Perm (b :: share)) :
    xs.Perm (b :: ys) := by
  have moved := (swapped.trans (one.append_left _)).trans List.perm_middle
  rw [← List.cons_append] at moved
  exact (List.perm_append_right_iff _).mp moved

/-- Filling a free slot of a descriptor in the table. -/
theorem register_adds (consistent : m.Consistent) {fd : Nat} (inside : fd < m.fdContexts.length)
    {event : Event} {slot : EventContext σ φ κ} {waiter : σ × Task φ κ}
    (free : m.registered fd event = none) (held : slot.Held) (holds : slot.waiter = some waiter) :
    Adds m { m.setFd fd (({ m.slotAt fd with
        events := (m.slotAt fd).events ||| event.bit }).setContext event slot) with
        pendingEventCount := m.pendingEventCount + 1 } fd event waiter := by
  set events := (m.slotAt fd).events ||| event.bit
  set ctx := ({ m.slotAt fd with events := events }).setContext event slot
  have good : ctx.Consistent := (consistent.slot fd).register event held
  have one : ctx.waiters.Perm (waiter :: (m.slotAt fd).waiters) :=
    FdContext.waiters_register _ free holds _
  have grown : (m.setFd fd ctx).waiting.Perm (waiter :: m.waiting) :=
    perm_cons_of_exchange (setFd_waiting inside ctx) one
  refine ⟨?_, free, ?_, ?_, grown, rfl⟩
  · apply setFd_consistent consistent good m.scheduled
    rw [grown.length_eq, consistent.count]
    simp
  · exact (registered_setFd inside events event slot fd event).trans
      ((if_pos ⟨rfl, rfl⟩).trans holds)
  · intro fd' event' other
    exact (registered_setFd inside events event slot fd' event').trans (if_neg other)

/-- Clearing a held slot of a descriptor in the table. -/
theorem unregister_removes (consistent : m.Consistent) {fd : Nat}
    (inside : fd < m.fdContexts.length) {event : Event} {waiter : σ × Task φ κ}
    (holds : m.registered fd event = some waiter) (tasks : List (σ × Task φ κ)) :
    Removes m { m.setFd fd (({ m.slotAt fd with
        events := (m.slotAt fd).events &&& ~~~event.bit }).setContext event {}) with
        pendingEventCount := m.pendingEventCount - 1
        scheduled := m.scheduled ++ tasks } fd event waiter tasks := by
  set events := (m.slotAt fd).events &&& ~~~event.bit
  set ctx := ({ m.slotAt fd with events := events }).setContext event {}
  have good : ctx.Consistent := (consistent.slot fd).unregister event
  have one : (m.slotAt fd).waiters.Perm (waiter :: ctx.waiters) :=
    FdContext.waiters_unregister _ holds _
  have shrunk : m.waiting.Perm (waiter :: (m.setFd fd ctx).waiting) :=
    perm_cons_of_exchange (setFd_waiting inside ctx).symm one
  refine ⟨?_, holds, ?_, ?_, shrunk, rfl, List.length_set⟩
  · apply setFd_consistent consistent good _
    rw [consistent.count, shrunk.length_eq]
    simp
  · exact (registered_setFd inside events event {} fd event).trans (if_pos ⟨rfl, rfl⟩)
  · intro fd' event' other
    exact (registered_setFd inside events event {} fd' event').trans (if_neg other)

end Dwframe.IOManager
