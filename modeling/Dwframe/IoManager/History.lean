import Mathlib.Algebra.GroupWithZero.Nat
import Dwframe.IoManager.Calls
import Mathlib.Data.List.Nodup
import Dwframe.Lib.Run

/-!
# Runs of the event table

A run is a list of calls, each with the outcome of its `epoll_ctl`. To tell waiters
apart every registration is given a ticket, its number in the run, which travels with
the fiber or callback. The history records which waiters were registered, which had
their slot emptied by a cancellation or a dispatch, and which by a deletion; what was
scheduled is the manager's own record.
-/
namespace Dwframe

variable {σ φ κ : Type}

/-- A waiter with the ticket of its registration. -/
abbrev Ticketed (σ φ κ : Type) : Type := σ × Task (φ × Nat) (κ × Nat)

def ticket (waiter : Ticketed σ φ κ) : Nat :=
  match waiter.2 with
  | .fiber f => f.2
  | .cb c => c.2

structure History (σ φ κ : Type) where
  manager : IOManager σ (φ × Nat) (κ × Nat)
  added : List (Ticketed σ φ κ)
  released : List (Ticketed σ φ κ)
  deleted : List (Ticketed σ φ κ)

inductive Request (σ φ κ : Type) where
  | addEvent (caller : Caller σ φ) (fd : Nat) (event : Event) (cb : Option κ) (ctl : Bool)
  | delEvent (fd : Nat) (event : Event) (ctl : Bool)
  | cancelEvent (fd : Nat) (event : Event) (ctl : Bool)
  | cancelALL (fd : Nat) (ctl : Bool)
  | dispatch (fd : Nat) (mask : BitVec 32) (ctl : Bool)

/-- The outcome of the `epoll_ctl` the call would make. -/
def Request.ctl : Request σ φ κ → Bool
  | addEvent _ _ _ _ ctl => ctl
  | delEvent _ _ ctl => ctl
  | cancelEvent _ _ ctl => ctl
  | cancelALL _ ctl => ctl
  | dispatch _ _ ctl => ctl

/-- The waiters of a descriptor whose slot is empty in `m'`. -/
def emptied (m m' : IOManager σ φ κ) (fd : Nat) : List (σ × Task φ κ) :=
  [Event.read, Event.write].flatMap fun event =>
    if (m'.registered fd event).isNone then (m.registered fd event).toList else []

namespace History

def initial : History σ φ κ := ⟨.create, [], [], []⟩

def step (h : History σ φ κ) : Request σ φ κ → Except IoFault (History σ φ κ)
  | .addEvent caller fd event cb ctl => do
    let number := h.added.length
    let (result, m) ← h.manager.addEvent ⟨caller.scheduler, (caller.fiber, number), caller.exec⟩
      fd event (cb.map fun c => (c, number)) ctl
    .ok { h with
      manager := m
      added := if result = 0 then h.added ++ (m.registered fd event).toList else h.added }
  | .delEvent fd event ctl => do
    let (_, m) ← h.manager.delEvent fd event ctl
    .ok { h with manager := m, deleted := h.deleted ++ emptied h.manager m fd }
  | .cancelEvent fd event ctl => do
    let (_, m) ← h.manager.cancelEvent fd event ctl
    .ok { h with manager := m, released := h.released ++ emptied h.manager m fd }
  | .cancelALL fd ctl => do
    let (_, m) ← h.manager.cancelALL fd ctl
    .ok { h with manager := m, released := h.released ++ emptied h.manager m fd }
  | .dispatch fd mask ctl => do
    let m ← h.manager.dispatch fd mask ctl
    .ok { h with manager := m, released := h.released ++ emptied h.manager m fd }

/-- An event is added only when it is not registered, on a scheduler thread; a report
is about a descriptor of the table and names registered events. -/
def Permitted (h : History σ φ κ) : Request σ φ κ → Prop
  | .addEvent caller fd event cb _ =>
    event.isIn (h.manager.slotAt fd).events = false ∧ caller.scheduler.isSome = true ∧
      (cb.isNone = true → caller.exec = true)
  | .dispatch fd mask _ =>
    fd < h.manager.fdContexts.length ∧
      ∀ event ∈ [Event.read, Event.write], event.isIn (IOManager.realEvents mask) = true →
        event.isIn (h.manager.slotAt fd).events = true
  | _ => True

instance (h : History σ φ κ) : (request : Request σ φ κ) → Decidable (h.Permitted request)
  | .addEvent .. => inferInstanceAs (Decidable (_ ∧ _ ∧ (_ → _)))
  | .dispatch .. => inferInstanceAs (Decidable (_ ∧ ∀ event ∈ [Event.read, Event.write], _ → _))
  | .delEvent .. => .isTrue trivial
  | .cancelEvent .. => .isTrue trivial
  | .cancelALL .. => .isTrue trivial

/-- The books balance: every registered waiter is released, deleted or still waiting,
and the released ones are those that were scheduled. -/
structure Balanced (h : History σ φ κ) : Prop where
  consistent : h.manager.Consistent
  tickets : h.added.map ticket = List.range h.added.length
  scheduled : h.manager.scheduled = h.released
  accounts : (h.released ++ (h.deleted ++ h.manager.waiting)).Perm h.added

section Emptied

variable {m m' : IOManager σ φ κ} {fd : Nat}

theorem emptied_of_releases {chosen : Event → Bool} (releases : m.Releases m' fd chosen) :
    emptied m m' fd = m.chosenWaiters fd chosen := by
  have each : ∀ event : Event,
      (if (m'.registered fd event).isNone then (m.registered fd event).toList else []) =
        (if chosen event then m.registered fd event else none).toList := by
    intro event
    rw [releases.here]
    cases chosen event <;> cases m.registered fd event <;> rfl
  simp only [emptied, List.flatMap_cons, List.flatMap_nil, List.append_nil, each,
    IOManager.chosenWaiters]

theorem emptied_of_removes {event : Event} {waiter : σ × Task φ κ} {tasks : List (σ × Task φ κ)}
    (removes : m.Removes m' fd event waiter tasks) : emptied m m' fd = [waiter] := by
  have other := removes.others fd
  cases event with
  | read =>
    have kept := other .write (by simp)
    cases slot : m.registered fd .write <;> simp [emptied, removes.here, removes.gone, kept, slot]
  | write =>
    have kept := other .read (by simp)
    cases slot : m.registered fd .read <;> simp [emptied, removes.here, removes.gone, kept, slot]

theorem emptied_self (m : IOManager σ φ κ) (fd : Nat) : emptied m m fd = [] := by
  cases reader : m.registered fd .read <;> cases writer : m.registered fd .write <;>
    simp [emptied, reader, writer]

end Emptied

/-! ### One call -/

variable {h : History σ φ κ}

/-- What a call with a failed `epoll_ctl` leaves as it was. -/
structure Untouched (h h' : History σ φ κ) : Prop where
  count : h'.manager.pendingEventCount = h.manager.pendingEventCount
  slots : ∀ fd, h'.manager.slotAt fd = h.manager.slotAt fd
  scheduled : h'.manager.scheduled = h.manager.scheduled

theorem untouched_self {added released deleted : List (Ticketed σ φ κ)} :
    h.Untouched ⟨h.manager, added, released, deleted⟩ :=
  ⟨rfl, fun _ => rfl, rfl⟩

/-- The three calls that release waiters. -/
private theorem release_balanced (balanced : h.Balanced)
    {m : IOManager σ (φ × Nat) (κ × Nat)} {fd : Nat} {chosen : Event → Bool}
    (releases : h.manager.Releases m fd chosen) :
    Balanced { h with manager := m, released := h.released ++ emptied h.manager m fd } where
  consistent := releases.consistent
  tickets := balanced.tickets
  scheduled := by
    change m.scheduled = h.released ++ emptied h.manager m fd
    rw [emptied_of_releases releases, releases.scheduled, balanced.scheduled]
  accounts := by
    change (h.released ++ emptied h.manager m fd ++ (h.deleted ++ m.waiting)).Perm h.added
    refine List.Perm.trans ?_ balanced.accounts
    rw [emptied_of_releases releases, List.append_assoc]
    refine List.Perm.append_left _ (List.Perm.trans ?_ (releases.waiting.symm.append_left _))
    rw [← List.append_assoc, ← List.append_assoc]
    -- the waiters that leave the table now stand among the released ones
    exact List.perm_append_comm.append_right _

private theorem delete_balanced (balanced : h.Balanced)
    {m : IOManager σ (φ × Nat) (κ × Nat)} {fd : Nat} {event : Event} {waiter : Ticketed σ φ κ}
    (removes : h.manager.Removes m fd event waiter []) :
    Balanced { h with manager := m, deleted := h.deleted ++ emptied h.manager m fd } where
  consistent := removes.consistent
  tickets := balanced.tickets
  scheduled := by
    change m.scheduled = h.released
    rw [removes.scheduled, List.append_nil, balanced.scheduled]
  accounts := by
    change (h.released ++ (h.deleted ++ emptied h.manager m fd ++ m.waiting)).Perm h.added
    refine List.Perm.trans (List.Perm.append_left _ ?_) balanced.accounts
    rw [emptied_of_removes removes, List.append_assoc]
    exact removes.waiting.symm.append_left _

private theorem add_balanced (balanced : h.Balanced)
    {m : IOManager σ (φ × Nat) (κ × Nat)} {fd : Nat} {event : Event} {waiter : Ticketed σ φ κ}
    (adds : h.manager.Adds m fd event waiter) (number : ticket waiter = h.added.length) :
    Balanced { h with manager := m, added := h.added ++ (m.registered fd event).toList } where
  consistent := adds.consistent
  tickets := by
    change (h.added ++ (m.registered fd event).toList).map ticket =
      List.range (h.added ++ (m.registered fd event).toList).length
    simp [adds.here, balanced.tickets, number, List.range_succ]
  scheduled := by
    change m.scheduled = h.released
    rw [adds.scheduled, balanced.scheduled]
  accounts := by
    change (h.released ++ (h.deleted ++ m.waiting)).Perm (h.added ++ (m.registered fd event).toList)
    rw [adds.here, Option.toList_some]
    refine List.Perm.trans ?_ (balanced.accounts.append_right [waiter])
    rw [List.append_assoc, List.append_assoc]
    refine List.Perm.append_left _ (List.Perm.append_left _ (adds.waiting.trans ?_))
    exact (List.perm_append_singleton _ _).symm

/-- A call that releases waiters, and with a failed `epoll_ctl` none. -/
private theorem release_spec (balanced : h.Balanced) {request : Request σ φ κ}
    {m : IOManager σ (φ × Nat) (κ × Nat)} {fd : Nat} {chosen : Event → Bool}
    (stepped : h.step request = .ok { h with
      manager := m, released := h.released ++ emptied h.manager m fd })
    (releases : h.manager.Releases m fd chosen) (failed : request.ctl = false → m = h.manager) :
    ∃ h', h.step request = .ok h' ∧ h'.Balanced ∧ (request.ctl = false → h.Untouched h') := by
  refine ⟨_, stepped, release_balanced balanced releases, ?_⟩
  intro off
  obtain rfl := failed off
  exact untouched_self

/-- A permitted call returns and keeps the books balanced; with a failed `epoll_ctl` it
changes nothing. -/
theorem step_spec (balanced : h.Balanced) {request : Request σ φ κ}
    (permitted : h.Permitted request) :
    ∃ h', h.step request = .ok h' ∧ h'.Balanced ∧ (request.ctl = false → h.Untouched h') := by
  cases request with
  | addEvent caller fd event cb ctl =>
    obtain ⟨clear, onScheduler, exec⟩ := permitted
    obtain ⟨scheduler, found⟩ := Option.isSome_iff_exists.mp onScheduler
    obtain ⟨result, m, ran, effect⟩ := IOManager.addEvent_spec balanced.consistent
      ⟨caller.scheduler, (caller.fiber, h.added.length), caller.exec⟩ fd
      (cb.map fun c => (c, h.added.length)) ctl clear found (by simpa using exec)
    have stepped : h.step (.addEvent caller fd event cb ctl) = .ok { h with
        manager := m
        added := if result = 0 then h.added ++ (m.registered fd event).toList else h.added } := by
      simp [step, bind, Except.bind, ran]
    refine ⟨_, stepped, ?_, ?_⟩
    · cases ctl with
      | true =>
        obtain ⟨rfl, adds⟩ := effect
        exact add_balanced balanced adds (by cases cb <;> rfl)
      | false =>
        obtain ⟨rfl, unchanged⟩ := effect
        exact ⟨unchanged.consistent, balanced.tickets, unchanged.scheduled.trans balanced.scheduled,
          unchanged.waiting ▸ balanced.accounts⟩
    · rintro ⟨⟩
      exact ⟨effect.2.count, effect.2.slots, effect.2.scheduled⟩
  | delEvent fd event ctl =>
    obtain ⟨result, m, ran, effect⟩ := IOManager.delEvent_spec balanced.consistent fd event ctl
    have stepped : h.step (.delEvent fd event ctl) = .ok { h with
        manager := m, deleted := h.deleted ++ emptied h.manager m fd } := by
      simp [step, bind, Except.bind, ran]
    refine ⟨_, stepped, ?_, ?_⟩
    · split at effect
      next =>
        obtain ⟨-, waiter, removes⟩ := effect
        exact delete_balanced balanced removes
      next =>
        obtain ⟨-, rfl⟩ := effect
        rw [emptied_self, List.append_nil]
        exact balanced
    · rintro ⟨⟩
      obtain ⟨-, rfl⟩ := effect
      exact untouched_self
  | cancelEvent fd event ctl =>
    obtain ⟨result, m, ran, releases, failed⟩ :=
      IOManager.cancelEvent_spec balanced.consistent fd event ctl
    exact release_spec balanced (by simp [step, bind, Except.bind, ran]) releases failed
  | cancelALL fd ctl =>
    obtain ⟨result, m, ran, releases, failed⟩ :=
      IOManager.cancelALL_spec balanced.consistent fd ctl
    exact release_spec balanced (by simp [step, bind, Except.bind, ran]) releases failed
  | dispatch fd mask ctl =>
    obtain ⟨inside, named⟩ := permitted
    have named' : ∀ event : Event, event.isIn (IOManager.realEvents mask) = true →
        event.isIn (h.manager.slotAt fd).events = true := by
      intro event
      exact named event (by cases event <;> simp)
    obtain ⟨m, ran, releases, failed⟩ :=
      IOManager.dispatch_spec balanced.consistent inside ctl named'
    exact release_spec balanced (by simp [step, bind, Except.bind, ran]) releases failed

/-! ### Whole runs -/

/-- What the table guarantees at every point of a run. -/
structure Exact (h : History σ φ κ) : Prop where
  /-- The counter is the number of event bits over all descriptors. -/
  count : h.manager.pendingEventCount = (h.manager.fdContexts.map FdContext.bits).sum
  set_iff : ∀ ctx ∈ h.manager.fdContexts, ∀ event : Event,
    event.isIn ctx.events = true ↔ (ctx.getContext event).Held
  clear_iff : ∀ ctx ∈ h.manager.fdContexts, ∀ event : Event,
    event.isIn ctx.events = false ↔ (ctx.getContext event).Empty
  /-- Nobody is scheduled twice, and nobody who did not register. -/
  once : h.manager.scheduled.Nodup ∧ ∀ waiter ∈ h.manager.scheduled, waiter ∈ h.added
  /-- Cancelled or dispatched waiters are scheduled, deleted and waiting ones are not. -/
  fate : ∀ waiter ∈ h.added,
    (waiter ∈ h.released ∧ waiter ∈ h.manager.scheduled ∧
      waiter ∉ h.deleted ∧ waiter ∉ h.manager.waiting) ∨
    (waiter ∈ h.deleted ∧ waiter ∉ h.manager.scheduled ∧
      waiter ∉ h.released ∧ waiter ∉ h.manager.waiting) ∨
    (waiter ∈ h.manager.waiting ∧ waiter ∉ h.manager.scheduled ∧
      waiter ∉ h.released ∧ waiter ∉ h.deleted)
  /-- A permitted call returns; if its `epoll_ctl` fails, nothing changes. -/
  failure : ∀ request, h.Permitted request →
    ∃ h', h.step request = .ok h' ∧ (request.ctl = false → h.Untouched h')

theorem Balanced.exact (balanced : h.Balanced) : h.Exact := by
  -- the tickets number the registrations, so no waiter was registered twice
  have distinct : h.added.Nodup := by
    have numbers : (h.added.map ticket).Nodup := by
      rw [balanced.tickets]
      exact List.nodup_range
    exact List.Nodup.of_map ticket numbers
  have accounts := balanced.accounts
  -- hence the three piles, which together are `added`, do not overlap
  have apart := accounts.nodup_iff.mpr distinct
  obtain ⟨released, kept, apart'⟩ := List.nodup_append.mp apart
  obtain ⟨-, -, apart''⟩ := List.nodup_append.mp kept
  have scheduled := balanced.scheduled
  refine ⟨?_, ?_, ?_, ⟨scheduled ▸ released, ?_⟩, ?_, ?_⟩
  · rw [balanced.consistent.count, IOManager.waiting, List.length_flatMap]
    congr 2
    exact List.map_congr_left fun ctx member =>
      ((balanced.consistent.contexts ctx member).bits_eq).symm
  · intro ctx member event
    have consistent := balanced.consistent.contexts ctx member
    refine ⟨consistent.held event, fun held => ?_⟩
    by_contra clear
    have empty := consistent.empty event (by simpa using clear)
    simp [EventContext.Held, empty.1] at held
  · intro ctx member event
    have consistent := balanced.consistent.contexts ctx member
    refine ⟨consistent.empty event, fun empty => ?_⟩
    by_contra set
    have held := consistent.held event (by simpa using set)
    simp [EventContext.Held, empty.1] at held
  · intro waiter member
    rw [scheduled] at member
    exact accounts.subset (List.mem_append_left _ member)
  · intro waiter member
    have place := accounts.symm.subset member
    rw [scheduled]
    simp only [List.mem_append] at place
    have notBoth : waiter ∈ h.released → waiter ∉ h.deleted ∧ waiter ∉ h.manager.waiting := by
      intro here
      exact ⟨fun there => apart' waiter here waiter (List.mem_append_left _ there) rfl,
        fun there => apart' waiter here waiter (List.mem_append_right _ there) rfl⟩
    have notBoth' : waiter ∈ h.deleted → waiter ∉ h.manager.waiting :=
      fun here there => apart'' waiter here waiter there rfl
    tauto
  · intro request permitted
    obtain ⟨h', stepped, -, untouched⟩ := step_spec balanced permitted
    exact ⟨h', stepped, untouched⟩

end History

end Dwframe
