import Dwframe.IoManager.History

/-!
# Reports that do not match the registered events

`idle` takes its reports from `epoll_wait` and locks a descriptor afterwards, so a report may
name events that are no longer registered. `dispatch` compares the report with the registered
events only to find out whether they are disjoint; beyond that it triggers whatever the report
names. A report therefore does nothing, releases what it names, or fails the assertion in
`triggerEvent`. Error bits play no part: the error test reads the registered bits, which have
none.
-/
namespace Dwframe

variable {σ φ κ : Type}

namespace IOManager

variable {m m' : IOManager σ φ κ} {fd : Nat} {mask : BitVec 32}

/-- The report names `event`. -/
def denotes (mask : BitVec 32) (event : Event) : Bool := event.isIn (realEvents mask)

def isRegistered (m : IOManager σ φ κ) (fd : Nat) (event : Event) : Bool :=
  event.isIn (m.slotAt fd).events

theorem trigger_unregistered (inside : fd < m.fdContexts.length) {event : Event}
    (absent : m.isRegistered fd event = false) : m.trigger fd event = .error .assertion := by
  have clear : event.isIn (m.slotAt fd).events = false := absent
  simp [trigger, bind, Except.bind, context_inside inside, FdContext.triggerEvent, clear]

/-- The early exit of `dispatch` is taken when nothing named is registered. -/
theorem skipped_iff (consistent : m.Consistent) :
    (m.slotAt fd).events &&& realEvents mask = 0 ↔
      ∀ event, m.isRegistered fd event = true → denotes mask event = false :=
  Event.mask_disjoint (consistent.slot fd).mask (mask_realEvents mask)

theorem dispatch_disjoint (consistent : m.Consistent) (inside : fd < m.fdContexts.length)
    (ctl : Bool) (disjoint : ∀ event, m.isRegistered fd event = true → denotes mask event = false) :
    m.dispatch fd mask ctl = .ok m := by
  have noError := Event.mask_no_error (consistent.slot fd).mask
  have skipped := (skipped_iff consistent).mpr disjoint
  simp only [dispatch, bind, Except.bind, context_inside inside, noError, ne_eq, not_true_eq_false,
    if_false, skipped, if_true]

theorem dispatch_ctl_failed (consistent : m.Consistent) (inside : fd < m.fdContexts.length) :
    m.dispatch fd mask false = .ok m := by
  have noError := Event.mask_no_error (consistent.slot fd).mask
  simp only [dispatch, bind, Except.bind, context_inside inside, noError, ne_eq, not_true_eq_false,
    if_false, Bool.not_false, if_true, ite_self]

/-- Something named is registered and something else named is not. -/
theorem dispatch_stale (consistent : m.Consistent) (inside : fd < m.fdContexts.length)
    {live stale : Event} (registered : m.isRegistered fd live = true)
    (named : denotes mask live = true) (gone : m.isRegistered fd stale = false)
    (named' : denotes mask stale = true) : m.dispatch fd mask true = .error .assertion := by
  have noError := Event.mask_no_error (consistent.slot fd).mask
  have taken : (m.slotAt fd).events &&& realEvents mask ≠ 0 := by
    intro skipped
    have clear := (skipped_iff consistent).mp skipped live registered
    rw [named] at clear
    cases clear
  simp only [dispatch, bind, Except.bind, context_inside inside, noError, ne_eq, not_true_eq_false,
    if_false, taken, Bool.not_true, Bool.false_eq_true]
  cases stale with
  | read =>
    -- the read branch comes first and fails at once
    have picked : Event.read.isIn (realEvents mask) = true := named'
    simp only [triggerIf, if_pos picked, trigger_unregistered inside gone]
  | write =>
    -- the live event is the read one: it is triggered before the write branch fails
    have live_read : live = .read := by
      cases live with
      | read => rfl
      | write =>
        rw [gone] at registered
        cases registered
    subst live_read
    have live_set : Event.read.isIn (realEvents mask) = true →
        Event.read.isIn (m.slotAt fd).events = true := fun _ => registered
    obtain ⟨m', ran, first⟩ := triggerIf_spec consistent live_set
    have still : m'.isRegistered fd .write = false := by
      rw [isRegistered, first.isIn consistent]
      simpa [isRegistered] using gone
    have picked : Event.write.isIn (realEvents mask) = true := named'
    have failed := trigger_unregistered (first.size ▸ inside) still
    rw [ran]
    simp only [triggerIf, if_pos picked, failed]

/-- What a dispatch that returns did: nothing, for lack of a common event or of `epoll_ctl`, or
it released what the report names, all of it registered. -/
theorem dispatch_cases (consistent : m.Consistent) (inside : fd < m.fdContexts.length) {ctl : Bool}
    (ran : m.dispatch fd mask ctl = .ok m') :
    (m' = m ∧ (ctl = false ∨
      ∀ event, m.isRegistered fd event = true → denotes mask event = false)) ∨
    (ctl = true ∧ (∀ event, denotes mask event = true → m.isRegistered fd event = true) ∧
      Releases m m' fd (denotes mask)) := by
  cases ctl with
  | false =>
    rw [dispatch_ctl_failed consistent inside] at ran
    cases ran
    exact .inl ⟨rfl, .inl rfl⟩
  | true =>
    by_cases disjoint : ∀ event, m.isRegistered fd event = true → denotes mask event = false
    · rw [dispatch_disjoint consistent inside true disjoint] at ran
      cases ran
      exact .inl ⟨rfl, .inr disjoint⟩
    · simp only [not_forall, Bool.not_eq_false] at disjoint
      obtain ⟨live, registered, named⟩ := disjoint
      have all : ∀ event, denotes mask event = true → m.isRegistered fd event = true := by
        intro stale named'
        by_contra gone
        rw [dispatch_stale consistent inside registered named (by simpa using gone) named'] at ran
        cases ran
      obtain ⟨after, ran', releases, -⟩ := dispatch_spec consistent inside true all
      rw [ran] at ran'
      cases ran'
      simp only [Bool.true_and] at releases
      exact .inr ⟨rfl, all, releases⟩

/-- Releasing waiters lowers the counter by their number. -/
theorem Releases.count {chosen : Event → Bool} (releases : Releases m m' fd chosen)
    (consistent : m.Consistent) :
    m'.pendingEventCount = m.pendingEventCount - (m.chosenWaiters fd chosen).length := by
  have total := releases.waiting.length_eq
  rw [List.length_append] at total
  rw [releases.consistent.count, consistent.count, total]
  omega

end IOManager

/-! ### Reachable tables -/

namespace History

open IOManager

/-- Events are registered by threads that run a scheduler. -/
def OnScheduler : Request σ φ κ → Prop
  | .addEvent caller _ _ _ _ => caller.scheduler.isSome = true
  | _ => True

instance : (request : Request σ φ κ) → Decidable (OnScheduler request)
  | .addEvent .. => inferInstanceAs (Decidable (_ = true))
  | .dispatch .. => .isTrue trivial
  | .delEvent .. => .isTrue trivial
  | .cancelEvent .. => .isTrue trivial
  | .cancelALL .. => .isTrue trivial

/-- A call that returns leaves a consistent table, whatever was reported to it. -/
theorem step_consistent {h h' : History σ φ κ} {request : Request σ φ κ}
    (consistent : h.manager.Consistent) (onScheduler : OnScheduler request)
    (stepped : h.step request = .ok h') : h'.manager.Consistent := by
  cases request with
  | addEvent caller fd event cb ctl =>
    simp only [step, bind, Except.bind] at stepped
    split at stepped
    · cases stepped
    next result ran =>
      cases stepped
      refine addEvent_consistent consistent ?_ ran
      exact onScheduler
  | delEvent fd event ctl =>
    obtain ⟨result, m, ran, effect⟩ := delEvent_spec consistent fd event ctl
    simp only [step, ran, bind, Except.bind] at stepped
    cases stepped
    split at effect
    · obtain ⟨-, waiter, removes⟩ := effect
      exact removes.consistent
    · obtain ⟨-, rfl⟩ := effect
      exact consistent
  | cancelEvent fd event ctl =>
    obtain ⟨result, m, ran, releases, -⟩ := cancelEvent_spec consistent fd event ctl
    simp only [step, ran, bind, Except.bind] at stepped
    cases stepped
    exact releases.consistent
  | cancelALL fd ctl =>
    obtain ⟨result, m, ran, releases, -⟩ := cancelALL_spec consistent fd ctl
    simp only [step, ran, bind, Except.bind] at stepped
    cases stepped
    exact releases.consistent
  | dispatch fd mask ctl =>
    simp only [step, bind, Except.bind] at stepped
    split at stepped
    · cases stepped
    next m ran =>
      cases stepped
      obtain ⟨chosen, releases⟩ := releases_of_dispatch consistent ran
      exact releases.consistent

theorem reached_consistent {requests : List (Request σ φ κ)} {h : History σ φ κ}
    (onScheduler : ∀ request ∈ requests, OnScheduler request)
    (reached : Lib.Run.calls step initial requests = .ok h) : h.manager.Consistent :=
  Lib.Run.calls_invariant (fun h => h.manager.Consistent)
    (fun _ _ _ consistent on stepped => step_consistent consistent on stepped)
    create_consistent onScheduler reached

/-! ### The two laws of `idle` -/

/-- In every table that calls lead to, a dispatch triggers exactly the registered waiters that the
report names, counts them off and fails no assertion, if and only if the report names nothing
registered, or `epoll_ctl` succeeds and the report names nothing that is not registered. -/
theorem dispatch_exact_iff {requests : List (Request σ φ κ)} {h : History σ φ κ}
    (onScheduler : ∀ request ∈ requests, OnScheduler request)
    (reached : Lib.Run.calls step initial requests = .ok h) {fd : Nat}
    (inside : fd < h.manager.fdContexts.length) (mask : BitVec 32) (ctl : Bool) :
    (∃ m, h.manager.dispatch fd mask ctl = .ok m ∧ h.manager.Releases m fd (denotes mask) ∧
      m.pendingEventCount =
        h.manager.pendingEventCount - (h.manager.chosenWaiters fd (denotes mask)).length) ↔
    (∀ event, h.manager.isRegistered fd event = true → denotes mask event = false) ∨
      ctl = true ∧ ∀ event, denotes mask event = true → h.manager.isRegistered fd event = true := by
  have consistent := reached_consistent onScheduler reached
  constructor
  · rintro ⟨m, ran, releases, -⟩
    rcases dispatch_cases consistent inside ran with ⟨rfl, rfl | disjoint⟩ | ⟨on, named, -⟩
    · -- nothing was triggered: what the report names was not waiting
      left
      intro event registered
      have still := releases.isIn consistent event
      have bit : event.isIn (h.manager.slotAt fd).events = true := registered
      simpa [bit] using still
    · exact .inl disjoint
    · exact .inr ⟨on, named⟩
  · rintro (disjoint | ⟨rfl, named⟩)
    · have releases : h.manager.Releases h.manager fd (denotes mask) :=
        consistent.releases_none disjoint
      exact ⟨h.manager, dispatch_disjoint consistent inside ctl disjoint, releases,
        releases.count consistent⟩
    · obtain ⟨m, ran, releases, -⟩ := dispatch_spec consistent inside true named
      simp only [Bool.true_and] at releases
      exact ⟨m, ran, releases, releases.count consistent⟩

/-- What a descriptor has registered after some calls. -/
private theorem registered_after {requests : List (Request σ φ κ)} {h : History σ φ κ} (fd : Nat)
    (reads writes : Bool) (reached : Lib.Run.calls step initial requests = .ok h)
    (bits : (Lib.Run.calls step initial requests).toOption.map (fun h =>
      (h.manager.isRegistered fd .read, h.manager.isRegistered fd .write)) = some (reads, writes)) :
    h.manager.isRegistered fd .read = reads ∧ h.manager.isRegistered fd .write = writes := by
  rw [reached] at bits
  simpa [Except.toOption] using bits

/-- A waiter for each event, one of them dispatched. -/
theorem dispatch_exact_iff_read_of_two :
    ∃ (h : History Unit Nat Nat) (m : IOManager Unit (Nat × Nat) (Nat × Nat)),
      Lib.Run.calls step initial [.addEvent ⟨some (), 7, true⟩ 3 .read none true,
        .addEvent ⟨some (), 8, true⟩ 3 .write none true] = .ok h ∧
      h.manager.dispatch 3 EPOLLIN true = .ok m ∧ h.manager.Releases m 3 (denotes EPOLLIN) := by
  obtain ⟨h, reached⟩ : ∃ h : History Unit Nat Nat,
      Lib.Run.calls step initial [.addEvent ⟨some (), 7, true⟩ 3 .read none true,
        .addEvent ⟨some (), 8, true⟩ 3 .write none true] = .ok h := ⟨_, rfl⟩
  obtain ⟨reads, -⟩ := registered_after 3 true true reached (by decide +kernel)
  have named : ∀ event, denotes EPOLLIN event = true → h.manager.isRegistered 3 event = true := by
    intro event named
    cases event with
    | read => exact reads
    | write => simp [denotes, realEvents, EPOLLIN, EPOLLOUT, Event.isIn, Event.bit] at named
  obtain ⟨m, ran, releases, -⟩ := (dispatch_exact_iff (by decide) reached (inside_of_isIn reads)
    EPOLLIN true).mpr (.inr ⟨rfl, named⟩)
  exact ⟨h, m, reached, ran, releases⟩

/-- `delEvent` removes the write event between `epoll_wait` and the lock; the report still names
it, and the live read event takes the dispatch to the assertion. -/
theorem dispatch_after_delEvent :
    ∃ h : History Unit Nat Nat,
      Lib.Run.calls step initial [.addEvent ⟨some (), 7, true⟩ 3 .read none true,
        .addEvent ⟨some (), 8, true⟩ 3 .write none true, .delEvent 3 .write true] = .ok h ∧
      h.manager.dispatch 3 (EPOLLIN ||| EPOLLOUT) true = .error .assertion :=
  ⟨_, rfl, rfl⟩

/-- A report, with `EPOLLERR` and `EPOLLHUP` or without, wakes every waiter of a descriptor if and
only if `epoll_ctl` succeeds and its `EPOLLIN` and `EPOLLOUT` name the registered events and no
others. -/
theorem dispatch_wakes_all_iff {requests : List (Request σ φ κ)} {h : History σ φ κ}
    (onScheduler : ∀ request ∈ requests, OnScheduler request)
    (reached : Lib.Run.calls step initial requests = .ok h) {fd : Nat} {some_event : Event}
    (waits : h.manager.isRegistered fd some_event = true) (mask : BitVec 32) (ctl : Bool) :
    (∃ m, h.manager.dispatch fd mask ctl = .ok m ∧ h.manager.Releases m fd fun _ => true) ↔
      ctl = true ∧ ∀ event, denotes mask event = h.manager.isRegistered fd event := by
  have consistent := reached_consistent onScheduler reached
  have inside := inside_of_isIn waits
  constructor
  · rintro ⟨m, ran, all⟩
    have woken : ∀ event, m.isRegistered fd event = false := by
      intro event
      rw [isRegistered, all.isIn consistent]
      rfl
    rcases dispatch_cases consistent inside ran with ⟨rfl, -⟩ | ⟨on, named, releases⟩
    · rw [woken some_event] at waits
      cases waits
    · refine ⟨on, fun event => ?_⟩
      have left := woken event
      rw [isRegistered, releases.isIn consistent] at left
      cases named_event : denotes mask event with
      | true => exact (named event named_event).symm
      | false =>
        simp only [named_event, Bool.not_false, Bool.true_and] at left
        exact left.symm
  · rintro ⟨rfl, same⟩
    have named : ∀ event, denotes mask event = true → h.manager.isRegistered fd event = true :=
      fun event named => same event ▸ named
    obtain ⟨m, ran, releases, -⟩ := dispatch_spec consistent inside true named
    refine ⟨m, ran, releases.congr consistent fun event registered => ?_⟩
    rw [Bool.true_and]
    exact (same event).trans registered

/-- The report of a hung-up descriptor names the one event that is waited for. -/
theorem dispatch_wakes_all_iff_hung_up :
    ∃ (h : History Unit Nat Nat) (m : IOManager Unit (Nat × Nat) (Nat × Nat)),
      Lib.Run.calls step initial [.addEvent ⟨some (), 7, true⟩ 3 .read none true] = .ok h ∧
      h.manager.dispatch 3 (EPOLLIN ||| EPOLLHUP) true = .ok m ∧
      h.manager.Releases m 3 fun _ => true := by
  obtain ⟨h, reached⟩ : ∃ h : History Unit Nat Nat,
      Lib.Run.calls step initial [.addEvent ⟨some (), 7, true⟩ 3 .read none true] = .ok h :=
    ⟨_, rfl⟩
  obtain ⟨reads, writes⟩ := registered_after 3 true false reached (by decide +kernel)
  have named : ∀ event, denotes (EPOLLIN ||| EPOLLHUP) event = h.manager.isRegistered 3 event := by
    intro event
    cases event with
    | read => rw [reads]; decide
    | write => rw [writes]; decide
  obtain ⟨m, ran, releases⟩ := (dispatch_wakes_all_iff (by decide) reached reads
    (EPOLLIN ||| EPOLLHUP) true).mpr ⟨rfl, named⟩
  exact ⟨h, m, reached, ran, releases⟩

/-- A fiber waits to read and the descriptor hangs up: nothing is scheduled, the fiber stays. -/
theorem hung_up_waiter_stays :
    ∃ h : History Unit Nat Nat,
      Lib.Run.calls step initial [.addEvent ⟨some (), 7, true⟩ 3 .read none true] = .ok h ∧
      h.manager.dispatch 3 EPOLLHUP true = .ok h.manager ∧
      h.manager.registered 3 .read = some ((), .fiber (7, 0)) ∧ h.manager.scheduled = [] :=
  ⟨_, rfl, rfl, rfl, rfl⟩

end History

end Dwframe
