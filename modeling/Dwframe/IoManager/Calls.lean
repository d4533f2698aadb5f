import Dwframe.IoManager.Table

/-!
# What each call does to the table

On a consistent table every call returns. It changes nothing, adds the waiter of one
event, or removes the waiters of one descriptor; only the last kind schedules, and it
schedules the waiters it removes.
-/
namespace Dwframe.IOManager

open scoped List

variable {σ φ κ : Type} {m m' m'' : IOManager σ φ κ}

/-- No count, bit or waiter of `m'` differs from `m`; the table may have grown. -/
structure Unchanged (m m' : IOManager σ φ κ) : Prop where
  consistent : m'.Consistent
  count : m'.pendingEventCount = m.pendingEventCount
  slots : ∀ fd, m'.slotAt fd = m.slotAt fd
  waiting : m'.waiting = m.waiting
  scheduled : m'.scheduled = m.scheduled

theorem Consistent.unchanged (consistent : m.Consistent) : Unchanged m m :=
  ⟨consistent, rfl, fun _ => rfl, rfl, rfl⟩

theorem Unchanged.registered (unchanged : Unchanged m m') (fd : Nat) (event : Event) :
    m'.registered fd event = m.registered fd event := by
  rw [IOManager.registered, unchanged.slots, IOManager.registered]

theorem Unchanged.adds (unchanged : Unchanged m m') {fd : Nat} {event : Event}
    {waiter : σ × Task φ κ} (adds : Adds m' m'' fd event waiter) : Adds m m'' fd event waiter where
  consistent := adds.consistent
  free := by rw [← unchanged.registered]; exact adds.free
  here := adds.here
  others fd' event' other := by rw [adds.others fd' event' other, unchanged.registered]
  waiting := by rw [← unchanged.waiting]; exact adds.waiting
  scheduled := by rw [adds.scheduled, unchanged.scheduled]

/-! ### Growing the table -/

/-- The table of the constructor has no event registered. -/
theorem create_consistent : (create : IOManager σ φ κ).Consistent := by
  have empty : (create : IOManager σ φ κ).fdContexts = (List.range 32).map fun i => { fd := i } :=
    rfl
  refine ⟨?_, by simp [empty], rfl⟩
  intro ctx member
  obtain ⟨i, -, rfl⟩ := List.mem_map.mp (empty ▸ member)
  exact FdContext.fresh_consistent i

theorem contextResize_fdContexts {size : Nat} (grows : m.fdContexts.length ≤ size) :
    (m.contextResize size).fdContexts = m.fdContexts ++
      (List.range (size - m.fdContexts.length)).map fun i => { fd := m.fdContexts.length + i } := by
  apply List.ext_getElem?
  intro i
  rw [contextResize, List.getElem?_map]
  by_cases old : i < m.fdContexts.length
  · rw [List.getElem?_append_left old, List.getElem?_range (by omega), Option.map_some,
      List.getElem?_eq_getElem old, Option.getD_some]
  · rw [List.getElem?_append_right (by omega), List.getElem?_map]
    by_cases new : i < size
    · rw [List.getElem?_range new, List.getElem?_range (by omega), Option.map_some,
        Option.map_some, List.getElem?_eq_none (by omega), Option.getD_none]
      congr 2
      omega
    · rw [List.getElem?_eq_none (by simpa using new), List.getElem?_eq_none (by simp; omega)]
      rfl

theorem contextResize_unchanged (consistent : m.Consistent) {size : Nat}
    (grows : m.fdContexts.length ≤ size) : Unchanged m (m.contextResize size) := by
  have grown := contextResize_fdContexts grows
  have same : (m.contextResize size).waiting = m.waiting := by
    rw [waiting, grown, List.flatMap_append, List.flatMap_map]
    have fresh : ((List.range (size - m.fdContexts.length)).flatMap fun i =>
        ({ fd := m.fdContexts.length + i } : FdContext σ φ κ).waiters) = [] :=
      List.flatMap_eq_nil_iff.mpr fun _ _ => rfl
    rw [fresh, List.append_nil, waiting]
  refine ⟨⟨?_, ?_, ?_⟩, rfl, ?_, same, rfl⟩
  · intro ctx member
    rw [grown] at member
    rcases List.mem_append.mp member with old | fresh
    · exact consistent.contexts ctx old
    · obtain ⟨i, -, rfl⟩ := List.mem_map.mp fresh
      exact FdContext.fresh_consistent _
  · rw [grown, List.length_append]
    exact Nat.le_trans consistent.large (Nat.le_add_right _ _)
  · rw [same]
    exact consistent.count
  · intro fd
    rw [slotAt, slotAt, contextResize, List.getElem?_map]
    by_cases inside : fd < size
    · rw [List.getElem?_range inside]
      rfl
    · rw [List.getElem?_eq_none (by simpa using inside), List.getElem?_eq_none (by omega)]
      rfl

/-! ### Registration -/

/-- The waiter `addEvent` stores: the callback, or the calling fiber. -/
def waiterOf (scheduler : σ) (caller : Caller σ φ) (cb : Option κ) : σ × Task φ κ :=
  (scheduler, (cb.map Task.cb).getD (.fiber caller.fiber))

/-- The table as `addEvent` finds it after growing it where needed. -/
private theorem grown_for (consistent : m.Consistent) (fd : Nat) :
    ∃ g : IOManager σ φ κ, (if (m.fdContexts.length : Int) > fd then m
        else m.contextResize ((fd : Int).toNat * 3 / 2)) = g ∧
      Unchanged m g ∧ fd < g.fdContexts.length := by
  split
  next inside => exact ⟨m, rfl, consistent.unchanged, by omega⟩
  next outside =>
    -- `fd * 1.5` exceeds `fd` from 2 on, and the table never has fewer than 32 entries
    have large := consistent.large
    refine ⟨_, rfl, contextResize_unchanged consistent (by omega), ?_⟩
    rw [contextResize, List.length_map, List.length_range]
    omega

theorem addEvent_spec (consistent : m.Consistent) (caller : Caller σ φ) {scheduler : σ} (fd : Nat)
    {event : Event} (cb : Option κ) (ctl : Bool)
    (clear : event.isIn (m.slotAt fd).events = false)
    (onScheduler : caller.scheduler = some scheduler) (exec : cb = none → caller.exec = true) :
    ∃ result m', m.addEvent caller fd event cb ctl = .ok (result, m') ∧
      if ctl then result = 0 ∧ Adds m m' fd event (waiterOf scheduler caller cb)
      else result = -1 ∧ Unchanged m m' := by
  obtain ⟨g, grown, unchanged, inside⟩ := grown_for consistent fd
  have slot := unchanged.consistent.slot fd
  rw [← unchanged.slots] at clear
  -- a clear bit means an empty slot, so the assertions on the slot hold
  have empty := (slot.empty event clear).eq
  have free : g.registered fd event = none := by
    rw [registered, FdContext.registered, empty]
    rfl
  simp only [addEvent, bind, Except.bind, grown, context_inside inside, clear, Bool.false_eq_true,
    if_false]
  cases ctl with
  | false => exact ⟨-1, g, rfl, rfl, unchanged⟩
  | true =>
    simp only [Bool.not_true, Bool.false_eq_true, if_false, empty, Option.isSome_none, Bool.or_self,
      onScheduler]
    cases cb with
    | none =>
      simp only [Option.isNone_none, Bool.true_and, exec rfl, Bool.not_true, Bool.false_eq_true,
        if_false]
      exact ⟨0, _, rfl, rfl,
        unchanged.adds (register_adds unchanged.consistent inside free ⟨rfl, by simp⟩ rfl)⟩
    | some c =>
      simp only [Option.isNone_some, Bool.false_and, Bool.false_eq_true, if_false]
      exact ⟨0, _, rfl, rfl,
        unchanged.adds (register_adds unchanged.consistent inside free ⟨rfl, by simp⟩ rfl)⟩

/-- `addEvent` returns only if the event was free. -/
theorem clear_of_addEvent (consistent : m.Consistent) {caller : Caller σ φ} {fd : Nat}
    {event : Event} {cb : Option κ} {ctl : Bool} {result : Int × IOManager σ φ κ}
    (ran : m.addEvent caller fd event cb ctl = .ok result) :
    event.isIn (m.slotAt fd).events = false := by
  obtain ⟨g, grown, unchanged, inside⟩ := grown_for consistent fd
  by_contra set
  have present : event.isIn (g.slotAt fd).events = true := by
    rw [unchanged.slots]
    simpa using set
  simp only [addEvent, bind, Except.bind, grown, context_inside inside, present, if_true] at ran
  cases ran

/-- `addEvent` returns only for a callback or an executing fiber, unless `epoll_ctl` failed. -/
theorem exec_of_addEvent (consistent : m.Consistent) {caller : Caller σ φ} {fd : Nat}
    {event : Event} {cb : Option κ} {result : Int × IOManager σ φ κ}
    (ran : m.addEvent caller fd event cb true = .ok result) : cb = none → caller.exec = true := by
  rintro rfl
  have clear := clear_of_addEvent consistent ran
  obtain ⟨g, grown, unchanged, inside⟩ := grown_for consistent fd
  rw [← unchanged.slots] at clear
  cases exec : caller.exec with
  | true => rfl
  | false =>
    simp only [addEvent, bind, Except.bind, grown, context_inside inside, clear,
      Bool.false_eq_true, if_false, Bool.not_true, Option.isNone_none, exec, Bool.not_false,
      Bool.and_self, if_true, ite_self] at ran
    cases ran

/-- On a scheduler thread, an `addEvent` that returns leaves a consistent table. -/
theorem addEvent_consistent (consistent : m.Consistent) {caller : Caller σ φ} {fd : Nat}
    {event : Event} {cb : Option κ} {ctl : Bool} {result : Int}
    (on : caller.scheduler.isSome = true)
    (ran : m.addEvent caller fd event cb ctl = .ok (result, m')) : m'.Consistent := by
  obtain ⟨scheduler, onScheduler⟩ := Option.isSome_iff_exists.mp on
  have clear := clear_of_addEvent consistent ran
  cases ctl with
  | true =>
    obtain ⟨zero, after, ran', effect⟩ := addEvent_spec consistent caller fd cb true clear
      onScheduler (exec_of_addEvent consistent ran)
    rw [ran] at ran'
    cases ran'
    rw [if_pos rfl] at effect
    exact effect.2.consistent
  | false =>
    obtain ⟨g, grown, unchanged, inside⟩ := grown_for consistent fd
    rw [← unchanged.slots] at clear
    simp only [addEvent, bind, Except.bind, grown, context_inside inside, clear,
      Bool.false_eq_true, if_false, Bool.not_false, if_true] at ran
    cases ran
    exact unchanged.consistent

/-! ### Removal -/

theorem Consistent.registered_isSome (consistent : m.Consistent) (fd : Nat) (event : Event) :
    (m.registered fd event).isSome = event.isIn (m.slotAt fd).events :=
  (consistent.slot fd).registered_isSome event

theorem delEvent_spec (consistent : m.Consistent) (fd : Nat) (event : Event) (ctl : Bool) :
    ∃ result m', m.delEvent fd event ctl = .ok (result, m') ∧
      if ctl && event.isIn (m.slotAt fd).events then
        result = true ∧ ∃ waiter, Removes m m' fd event waiter []
      else result = false ∧ m' = m := by
  unfold delEvent
  split
  next outside =>
    have clear : event.isIn (m.slotAt fd).events = false := by
      by_contra set
      have inside := inside_of_isIn (m := m) (by simpa using set)
      omega
    exact ⟨false, m, rfl, by simp [clear]⟩
  next outside =>
    have inside : fd < m.fdContexts.length := by omega
    simp only [bind, Except.bind, context_inside inside]
    cases set : event.isIn (m.slotAt fd).events with
    | false => exact ⟨false, m, rfl, by simp⟩
    | true =>
      cases ctl with
      | false => exact ⟨false, m, rfl, by simp⟩
      | true =>
        have some_waiter := consistent.registered_isSome fd event
        rw [set] at some_waiter
        obtain ⟨waiter, holds⟩ := Option.isSome_iff_exists.mp some_waiter
        have removes := unregister_removes consistent inside holds []
        rw [List.append_nil] at removes
        exact ⟨true, _, rfl, rfl, waiter, removes⟩

theorem trigger_spec (consistent : m.Consistent) {fd : Nat} {event : Event}
    (set : event.isIn (m.slotAt fd).events = true) :
    ∃ m' waiter, m.trigger fd event = .ok m' ∧ Removes m m' fd event waiter [waiter] := by
  have inside := inside_of_isIn set
  obtain ⟨waiter, holds, triggered⟩ := (consistent.slot fd).triggerEvent set
  refine ⟨_, waiter, ?_, unregister_removes consistent inside holds [waiter]⟩
  simp only [trigger, bind, Except.bind, context_inside inside, triggered]

/-! ### Releasing waiters -/

/-- The waiters of the chosen events of a descriptor. -/
def chosenWaiters (m : IOManager σ φ κ) (fd : Nat) (chosen : Event → Bool) : List (σ × Task φ κ) :=
  (if chosen .read then m.registered fd .read else none).toList ++
    (if chosen .write then m.registered fd .write else none).toList

/-- `m'` is `m` with the waiters of the chosen events removed and scheduled. -/
structure Releases (m m' : IOManager σ φ κ) (fd : Nat) (chosen : Event → Bool) : Prop where
  consistent : m'.Consistent
  here : ∀ event, m'.registered fd event = if chosen event then none else m.registered fd event
  others : ∀ fd' event, fd' ≠ fd → m'.registered fd' event = m.registered fd' event
  waiting : m.waiting ~ m.chosenWaiters fd chosen ++ m'.waiting
  scheduled : m'.scheduled = m.scheduled ++ m.chosenWaiters fd chosen
  size : m'.fdContexts.length = m.fdContexts.length

/-- The choice only matters where a waiter is registered. -/
theorem Releases.congr {fd : Nat} {p q : Event → Bool} (releases : Releases m m' fd p)
    (consistent : m.Consistent)
    (agree : ∀ event, event.isIn (m.slotAt fd).events = true → p event = q event) :
    Releases m m' fd q := by
  have same : ∀ event, (p event = q event) ∨ m.registered fd event = none := by
    intro event
    cases set : event.isIn (m.slotAt fd).events with
    | true => exact .inl (agree event set)
    | false =>
      have clear := consistent.registered_isSome fd event
      rw [set] at clear
      exact .inr (by simpa using clear)
  have picked : ∀ event, (if p event then m.registered fd event else none) =
      if q event then m.registered fd event else none := by
    intro event
    -- where the choices differ there is no waiter to choose
    rcases same event with eq | free
    · rw [eq]
    · simp [free]
  have waiters : m.chosenWaiters fd p = m.chosenWaiters fd q := by
    rw [chosenWaiters, chosenWaiters, picked, picked]
  refine ⟨releases.consistent, ?_, releases.others, waiters ▸ releases.waiting,
    waiters ▸ releases.scheduled, releases.size⟩
  intro event
  rw [releases.here]
  rcases same event with eq | free
  · rw [eq]
  · simp [free]

/-- Choosing only events without a waiter releases nothing. -/
theorem Consistent.releases_none (consistent : m.Consistent) {fd : Nat} {chosen : Event → Bool}
    (none : ∀ event, event.isIn (m.slotAt fd).events = true → chosen event = false) :
    Releases m m fd chosen := by
  have nothing : Releases m m fd fun _ => false :=
    ⟨consistent, fun _ => rfl, fun _ _ _ => rfl, .rfl, (List.append_nil _).symm, rfl⟩
  exact nothing.congr consistent fun event set => (none event set).symm

theorem Removes.releases {fd : Nat} {event : Event} {waiter : σ × Task φ κ}
    (removes : Removes m m' fd event waiter [waiter]) :
    Releases m m' fd fun e => decide (e = event) := by
  have one : m.chosenWaiters fd (fun e => decide (e = event)) = [waiter] := by
    cases event <;> simp [chosenWaiters, removes.here]
  refine ⟨removes.consistent, ?_, ?_, ?_, ?_, removes.size⟩
  · intro e
    by_cases same : e = event
    · subst same
      simp [removes.gone]
    · simp [same, removes.others fd e (fun both => same both.2)]
  · intro fd' e differ
    exact removes.others fd' e fun both => differ both.1
  · rw [one]
    exact removes.waiting
  · rw [one]
    exact removes.scheduled

/-- Releasing from the read slot and then from the write slot. -/
theorem Releases.trans {fd : Nat} {p q : Event → Bool} (first : Releases m m' fd p)
    (second : Releases m' m'' fd q) (readOnly : p .write = false) (writeOnly : q .read = false) :
    Releases m m'' fd fun event => p event || q event := by
  have both : m.chosenWaiters fd (fun event => p event || q event) =
      m.chosenWaiters fd p ++ m'.chosenWaiters fd q := by
    simp [chosenWaiters, first.here, readOnly, writeOnly]
  refine ⟨second.consistent, ?_, ?_, ?_, ?_, second.size.trans first.size⟩
  · intro event
    rw [second.here, first.here]
    cases p event <;> cases q event <;> rfl
  · intro fd' event differ
    rw [second.others fd' event differ, first.others fd' event differ]
  · rw [both, List.append_assoc]
    exact first.waiting.trans (second.waiting.append_left _)
  · rw [both, second.scheduled, first.scheduled, List.append_assoc]

theorem cancelEvent_spec (consistent : m.Consistent) (fd : Nat) (event : Event) (ctl : Bool) :
    ∃ result m', m.cancelEvent fd event ctl = .ok (result, m') ∧
      Releases m m' fd (fun e => ctl && decide (e = event)) ∧ (ctl = false → m' = m) := by
  unfold cancelEvent
  split
  next outside =>
    refine ⟨false, m, rfl, consistent.releases_none ?_, fun _ => rfl⟩
    intro e set
    have inside := inside_of_isIn set
    omega
  next outside =>
    have inside : fd < m.fdContexts.length := by omega
    simp only [bind, Except.bind, context_inside inside]
    cases set : event.isIn (m.slotAt fd).events with
    | false =>
      refine ⟨false, m, rfl, consistent.releases_none ?_, fun _ => rfl⟩
      intro e present
      by_cases same : e = event
      · rw [same, set] at present
        cases present
      · simp [same]
    | true =>
      cases ctl with
      | false => exact ⟨false, m, rfl, consistent.releases_none (by simp), fun _ => rfl⟩
      | true =>
        obtain ⟨m', waiter, triggered, removes⟩ := trigger_spec consistent set
        refine ⟨true, m', by simp [triggered], ?_, by simp⟩
        simpa using removes.releases

theorem triggerIf_spec (consistent : m.Consistent) {fd : Nat} {event : Event} {mask : BitVec 32}
    (named : event.isIn mask = true → event.isIn (m.slotAt fd).events = true) :
    ∃ m', m.triggerIf fd event mask = .ok m' ∧
      Releases m m' fd fun e => e.isIn mask && decide (e = event) := by
  unfold triggerIf
  split
  next picked =>
    obtain ⟨m', waiter, triggered, removes⟩ := trigger_spec consistent (named picked)
    refine ⟨m', triggered, ?_⟩
    have only : (fun e : Event => e.isIn mask && decide (e = event)) =
        fun e => decide (e = event) := by
      funext e
      by_cases same : e = event
      · simp [same, picked]
      · simp [same]
    rw [only]
    exact removes.releases
  next skipped =>
    refine ⟨m, rfl, consistent.releases_none ?_⟩
    intro e _
    by_cases same : e = event
    · simpa [same] using skipped
    · simp [same]

theorem Releases.isIn {fd : Nat} {chosen : Event → Bool} (releases : Releases m m' fd chosen)
    (consistent : m.Consistent) (event : Event) :
    event.isIn (m'.slotAt fd).events = (!chosen event && event.isIn (m.slotAt fd).events) := by
  rw [← releases.consistent.registered_isSome, ← consistent.registered_isSome, releases.here]
  cases chosen event <;> rfl

/-- The second of the two `triggerIf`s that `cancelALL` and `idle` make. -/
theorem triggerIf_write_spec (consistent : m.Consistent) {fd : Nat} {mask mask' : BitVec 32}
    (first : Releases m m' fd fun event => event.isIn mask && decide (event = .read))
    (named : ∀ event : Event, event.isIn mask = true → event.isIn (m.slotAt fd).events = true)
    (agree : Event.write.isIn mask' = Event.write.isIn mask) :
    ∃ m'', m'.triggerIf fd .write mask' = .ok m'' ∧
      Releases m m'' fd fun event => event.isIn mask := by
  have still : Event.write.isIn mask' = true → Event.write.isIn (m'.slotAt fd).events = true := by
    intro picked
    rw [first.isIn consistent, named .write (by rw [← agree]; exact picked)]
    simp
  obtain ⟨m'', ran, second⟩ := triggerIf_spec first.consistent still
  refine ⟨m'', ran, ?_⟩
  have both := first.trans second (by simp) (by simp)
  have eq : (fun event : Event => event.isIn mask && decide (event = .read) ||
      event.isIn mask' && decide (event = .write)) = fun event => event.isIn mask := by
    funext event
    cases event <;> simp [agree]
  rwa [eq] at both

theorem cancelALL_spec (consistent : m.Consistent) (fd : Nat) (ctl : Bool) :
    ∃ result m', m.cancelALL fd ctl = .ok (result, m') ∧
      Releases m m' fd (fun _ => ctl) ∧ (ctl = false → m' = m) := by
  unfold cancelALL
  split
  next outside =>
    refine ⟨false, m, rfl, consistent.releases_none ?_, fun _ => rfl⟩
    intro e set
    have inside := inside_of_isIn set
    omega
  next outside =>
    have inside : fd < m.fdContexts.length := by omega
    simp only [bind, Except.bind, context_inside inside]
    split
    next empty =>
      refine ⟨false, m, rfl, consistent.releases_none ?_, fun _ => rfl⟩
      obtain ⟨noRead, noWrite⟩ := (Event.mask_eq_zero (consistent.slot fd).mask).mp empty
      intro e set
      cases e <;> simp_all
    next =>
      cases ctl with
      | false => exact ⟨false, m, rfl, consistent.releases_none (by simp), fun _ => rfl⟩
      | true =>
        have same : Event.read.isIn (m.slotAt fd).events = true →
            Event.read.isIn (m.slotAt fd).events = true := id
        obtain ⟨m', ran, first⟩ := triggerIf_spec consistent same
        -- triggering the read event leaves the write bit
        have agree : Event.write.isIn (m'.slotAt fd).events =
            Event.write.isIn (m.slotAt fd).events := by
          rw [first.isIn consistent]
          simp
        obtain ⟨m'', ran', both⟩ := triggerIf_write_spec consistent first (fun _ => id) agree
        -- the assertion at the end: both events are gone
        have cleared : (m''.slotAt fd).events = 0 := by
          rw [Event.mask_eq_zero (both.consistent.slot fd).mask, both.isIn consistent,
            both.isIn consistent]
          simp
        refine ⟨true, m'', ?_, both.congr consistent fun _ set => set, by simp⟩
        simp [ran, context_inside (first.size ▸ inside), ran',
          context_inside (both.size ▸ inside), cleared]

theorem mask_realEvents (mask : BitVec 32) : Event.Mask (realEvents mask) := by
  unfold realEvents
  split <;> split <;> simp [Event.Mask, Event.bit]

theorem dispatch_spec (consistent : m.Consistent) {fd : Nat} (inside : fd < m.fdContexts.length)
    {mask : BitVec 32} (ctl : Bool)
    (named : ∀ event : Event, event.isIn (realEvents mask) = true →
      event.isIn (m.slotAt fd).events = true) :
    ∃ m', m.dispatch fd mask ctl = .ok m' ∧
      Releases m m' fd (fun event => ctl && event.isIn (realEvents mask)) ∧
      (ctl = false → m' = m) := by
  -- the error branch tests the registered bits and is never taken
  have noError := Event.mask_no_error (consistent.slot fd).mask
  simp only [dispatch, bind, Except.bind, context_inside inside, noError, ne_eq, not_true_eq_false,
    if_false]
  split
  next empty =>
    refine ⟨m, rfl, consistent.releases_none ?_, fun _ => rfl⟩
    intro e set
    simp [(Event.mask_disjoint (consistent.slot fd).mask (mask_realEvents mask)).mp empty e set]
  next =>
    cases ctl with
    | false => exact ⟨m, rfl, consistent.releases_none (by simp), fun _ => rfl⟩
    | true =>
      obtain ⟨m', ran, first⟩ := triggerIf_spec consistent (named .read)
      obtain ⟨m'', ran', both⟩ := triggerIf_write_spec consistent first named rfl
      exact ⟨m'', by simp [ran, ran'], by simpa using both, by simp⟩

/-- A `triggerIf` that returns found its event registered. -/
theorem releases_of_triggerIf (consistent : m.Consistent) {fd : Nat} {event : Event}
    {mask : BitVec 32} (ran : m.triggerIf fd event mask = .ok m') :
    Releases m m' fd fun e => e.isIn mask && decide (e = event) := by
  have named : event.isIn mask = true → event.isIn (m.slotAt fd).events = true := by
    intro picked
    -- otherwise the assertion in `triggerEvent` would have failed
    by_contra clear
    rw [triggerIf, if_pos picked, trigger] at ran
    cases found : m.context fd with
    | error fault => simp [found, bind, Except.bind] at ran
    | ok ctx =>
      have same : ctx = m.slotAt fd := by
        rw [context_natCast] at found
        split at found
        · cases found
        next at_fd =>
          cases found
          exact (slotAt_of_getElem? at_fd).symm
      simp [found, bind, Except.bind, FdContext.triggerEvent, same, clear] at ran
  obtain ⟨after, ran', releases⟩ := triggerIf_spec consistent named
  rw [ran] at ran'
  cases ran'
  exact releases

/-- Whatever was reported, a dispatch that returns only releases waiters. -/
theorem releases_of_dispatch (consistent : m.Consistent) {fd : Nat} {mask : BitVec 32} {ctl : Bool}
    (ran : m.dispatch fd mask ctl = .ok m') : ∃ chosen, Releases m m' fd chosen := by
  have nothing : Releases m m fd fun _ => false := consistent.releases_none fun _ _ => rfl
  simp only [dispatch, bind, Except.bind] at ran
  split at ran
  · cases ran
  next ctx _ =>
    -- nothing is used of the report
    generalize (if ctx.events &&& (EPOLLERR ||| EPOLLHUP) ≠ 0 then mask ||| EPOLLIN ||| EPOLLOUT
      else mask) = report at ran
    split at ran
    · cases ran
      exact ⟨_, nothing⟩
    · split at ran
      · cases ran
        exact ⟨_, nothing⟩
      · split at ran
        · cases ran
        next mid first =>
          have read := releases_of_triggerIf consistent first
          have write := releases_of_triggerIf read.consistent ran
          exact ⟨_, read.trans write (by simp) (by simp)⟩

/-- A waiter is registered until it is scheduled. -/
theorem Releases.keeps {fd : Nat} {chosen : Event → Bool} (releases : Releases m m' fd chosen)
    {fd' : Nat} {event : Event} {waiter : σ × Task φ κ}
    (registered : m.registered fd' event = some waiter) :
    m'.registered fd' event = some waiter ∨ waiter ∈ m'.scheduled := by
  by_cases here : fd' = fd
  · subst here
    rw [releases.here]
    cases picked : chosen event with
    | false => exact .inl (by simpa using registered)
    | true =>
      right
      rw [releases.scheduled, chosenWaiters]
      cases event <;> simp [picked, registered]
  · exact .inl ((releases.others fd' event here).trans registered)

theorem Releases.subset {fd : Nat} {chosen : Event → Bool} (releases : Releases m m' fd chosen)
    {waiter : σ × Task φ κ} (before : waiter ∈ m.scheduled) : waiter ∈ m'.scheduled := by
  rw [releases.scheduled]
  exact List.mem_append_left _ before

end Dwframe.IOManager
