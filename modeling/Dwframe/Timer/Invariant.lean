import Dwframe.Timer.Model
import Dwframe.Lib.Run
import Mathlib.Data.List.Nodup

/-!
# The timer set stays ordered

`Ordered` is the manager's invariant: the set is sorted by `(m_next, address)`, and
an object is in it exactly when its callback is non-null. `OrderedBut` is the same
with some timers taken out, the state between the two halves of `refresh` and
inside the loop of `listExpiredCb`. Every call returns, so no `find` that feeds an
`erase` comes back with `end()` and no `m_next` changes under the set.
-/
namespace Dwframe.TimerManager

open Lib Lib.Run

variable {κ : Type}

theorem comparator_iff {next : Nat → UInt32} {a b : Nat} :
    comparator next a b = true ↔ next a < next b ∨ (next a = next b ∧ a < b) := by
  simp only [comparator, UInt32.lt_iff_toNat_lt, ← UInt32.toNat_inj]
  split
  next lower => simp [lower]
  next =>
    split
    next higher =>
      simp only [Bool.false_eq_true, false_iff]
      omega
    next =>
      simp only [decide_eq_true_eq]
      omega

instance comparator_order (next : Nat → UInt32) :
    IsStrictTotalOrder Nat (fun a b => comparator next a b = true) where
  irrefl a := by simp [comparator_iff]
  trans a b c := by
    simp only [comparator_iff, UInt32.lt_iff_toNat_lt, ← UInt32.toNat_inj]
    omega
  trichotomous a b := by
    simp only [comparator_iff, UInt32.lt_iff_toNat_lt, ← UInt32.toNat_inj]
    omega

theorem comparator_update {next : Nat → UInt32} {addr a b : Nat} (v : UInt32) (ha : a ≠ addr)
    (hb : b ≠ addr) : comparator (Function.update next addr v) a b = comparator next a b := by
  simp [comparator, Function.update_of_ne ha, Function.update_of_ne hb]

@[simp] theorem store_timers (s : TimerManager κ) (addr : Nat) (timer : Timer κ) :
    (s.store addr timer).timers = s.timers := rfl

@[simp] theorem store_object (s : TimerManager κ) (addr : Nat) (timer : Timer κ) :
    (s.store addr timer).object = Function.update s.object addr (some timer) := rfl

theorem store_nextOf (s : TimerManager κ) (addr : Nat) (timer : Timer κ) :
    (s.store addr timer).nextOf = Function.update s.nextOf addr timer.next := by
  funext a
  by_cases same : a = addr
  · subst same
    simp [nextOf]
  · simp [nextOf, Function.update_of_ne same]

/-- A set in the order of its comparator, of timers that exist. -/
structure Coherent (s : TimerManager κ) : Prop where
  sorted : OrderedSet.Sorted (comparator s.nextOf) s.timers
  live : ∀ a ∈ s.timers, ∃ timer, s.object a = some timer

namespace Coherent

variable {s : TimerManager κ}

/-- The first timer has the least time. -/
theorem least (coherent : Coherent s) {first : Nat} {rest : List Nat}
    (head : s.timers = first :: rest) : ∀ addr ∈ s.timers, s.nextOf first ≤ s.nextOf addr := by
  intro addr member
  have sorted := coherent.sorted
  rw [head] at member sorted
  rcases List.mem_cons.mp member with rfl | later
  · exact UInt32.le_refl _
  · have before := comparator_iff.mp ((List.pairwise_cons.mp sorted).1 addr later)
    rw [UInt32.lt_iff_toNat_lt, ← UInt32.toNat_inj] at before
    rw [UInt32.le_iff_toNat_le]
    omega

/-- Assigning fields of an object outside the set does not disturb the order. -/
theorem store (coherent : Coherent s) {addr : Nat} (absent : addr ∉ s.timers) (timer : Timer κ) :
    Coherent (s.store addr timer) where
  sorted := by
    rw [store_nextOf]
    -- the comparator reads the changed object only when it is compared, so never here
    refine coherent.sorted.congr fun a ha b hb => comparator_update _ ?_ ?_
    · rintro rfl
      exact absent ha
    · rintro rfl
      exact absent hb
  live a inside := by
    by_cases same : a = addr
    · exact ⟨timer, by simp [same]⟩
    · simpa [Function.update_of_ne same] using coherent.live a inside

theorem insert (coherent : Coherent s) {addr : Nat} {timer : Timer κ}
    (found : s.object addr = some timer) : Coherent (s.insert addr) where
  sorted := coherent.sorted.insert addr
  live a inside := by
    rcases (OrderedSet.mem_insert addr s.timers).mp inside with rfl | old
    · exact ⟨timer, found⟩
    · exact coherent.live a old

end Coherent

/-- The invariant while the timers `out` are taken out of the set. -/
structure OrderedBut (s : TimerManager κ) (out : List Nat) : Prop where
  sorted : OrderedSet.Sorted (comparator s.nextOf) s.timers
  out_nodup : out.Nodup
  out_absent : ∀ a ∈ out, a ∉ s.timers
  live : ∀ a, a ∈ s.timers ∨ a ∈ out → ∃ timer, s.object a = some timer
  armed_iff : ∀ a timer, s.object a = some timer →
    (timer.cb.isSome = true ↔ a ∈ s.timers ∨ a ∈ out)

abbrev Ordered (s : TimerManager κ) : Prop := OrderedBut s []

theorem empty_ordered : Ordered (empty : TimerManager κ) where
  sorted := .nil
  out_nodup := .nil
  out_absent := by simp
  live := by simp [empty]
  armed_iff := by simp [empty]

namespace OrderedBut

variable {s : TimerManager κ} {out : List Nat}

theorem coherent (ordered : OrderedBut s out) : Coherent s :=
  ⟨ordered.sorted, fun a inside => ordered.live a (.inl inside)⟩

/-- Rewriting an object that is out of the set, its callback still there. -/
theorem store_out (ordered : OrderedBut s out) {addr : Nat} (member : addr ∈ out)
    (timer : Timer κ) (armed : timer.cb.isSome = true) :
    OrderedBut (s.store addr timer) out where
  sorted := (ordered.coherent.store (ordered.out_absent addr member) timer).sorted
  out_nodup := ordered.out_nodup
  out_absent := ordered.out_absent
  live a here := by
    by_cases same : a = addr
    · exact ⟨timer, by simp [same]⟩
    · simpa [Function.update_of_ne same] using ordered.live a here
  armed_iff a t found := by
    by_cases same : a = addr
    · subst same
      simp only [store_object, Function.update_self, Option.some.injEq] at found
      subst found
      exact ⟨fun _ => .inr member, fun _ => armed⟩
    · exact ordered.armed_iff a t (by simpa [Function.update_of_ne same] using found)

/-- A timer that is out comes back by an insertion. -/
theorem insert (ordered : OrderedBut s out) {addr : Nat} (member : addr ∈ out) :
    OrderedBut (s.insert addr) (out.erase addr) where
  sorted := ordered.sorted.insert addr
  out_nodup := ordered.out_nodup.erase addr
  out_absent a here inside := by
    -- `out` has no duplicates: what is left of it is not `addr`
    have kept := (ordered.out_nodup.mem_erase_iff).mp here
    rcases (OrderedSet.mem_insert addr s.timers).mp inside with same | old
    · exact kept.1 same
    · exact ordered.out_absent a kept.2 old
  live a here := by
    apply ordered.live a
    rcases here with inside | left
    · rcases (OrderedSet.mem_insert addr s.timers).mp inside with rfl | old
      · exact .inr member
      · exact .inl old
    · exact .inr (List.mem_of_mem_erase left)
  armed_iff a timer found := by
    rw [ordered.armed_iff a timer found]
    change _ ↔ a ∈ OrderedSet.insert _ addr s.timers ∨ _
    rw [OrderedSet.mem_insert addr s.timers, ordered.out_nodup.mem_erase_iff]
    by_cases same : a = addr
    · simp [same, member]
    · simp [same]

/-- A second insertion finds the timer in the set and changes nothing. -/
theorem insert_again (ordered : Ordered s) {addr : Nat} (inside : addr ∈ s.timers) :
    Ordered (s.insert addr) where
  sorted := ordered.sorted.insert addr
  out_nodup := .nil
  out_absent := by simp
  live a here := by
    refine ordered.live a (.inl ?_)
    rcases here with inserted | left
    · rcases (OrderedSet.mem_insert addr s.timers).mp inserted with rfl | old
      · exact inside
      · exact old
    · simp at left
  armed_iff a timer found := by
    rw [ordered.armed_iff a timer found]
    change _ ↔ a ∈ OrderedSet.insert _ addr s.timers ∨ _
    rw [OrderedSet.mem_insert addr s.timers]
    simp only [List.not_mem_nil, or_false, iff_or_self]
    rintro rfl
    exact inside

/-- A one-shot timer that is out loses its callback and is gone for good. -/
theorem disarm (ordered : OrderedBut s out) {addr : Nat} (member : addr ∈ out)
    (timer : Timer κ) (null : timer.cb = none) :
    OrderedBut (s.store addr timer) (out.erase addr) where
  sorted := (ordered.coherent.store (ordered.out_absent addr member) timer).sorted
  out_nodup := ordered.out_nodup.erase addr
  out_absent a here := ordered.out_absent a (List.mem_of_mem_erase here)
  live a here := by
    by_cases same : a = addr
    · exact ⟨timer, by simp [same]⟩
    · have old : a ∈ s.timers ∨ a ∈ out := here.imp id List.mem_of_mem_erase
      simpa [Function.update_of_ne same] using ordered.live a old
  armed_iff a t found := by
    have absent := ordered.out_absent addr member
    by_cases same : a = addr
    · subst same
      simp only [store_object, Function.update_self, Option.some.injEq] at found
      subst found
      simp [null, absent, ordered.out_nodup.mem_erase_iff]
    · rw [ordered.armed_iff a t (by simpa [Function.update_of_ne same] using found)]
      simp [same, ordered.out_nodup.mem_erase_iff]

/-- An armed timer is found in the set. -/
theorem find_armed (ordered : Ordered s) {addr : Nat} {timer : Timer κ}
    (found : s.object addr = some timer) (armed : timer.cb.isSome = true) :
    addr ∈ s.timers ∧ s.find addr = some addr := by
  have inside : addr ∈ s.timers := by simpa using (ordered.armed_iff addr timer found).mp armed
  exact ⟨inside, OrderedSet.find_of_mem ordered.sorted inside⟩

/-- Erasing a timer leaves it out, nothing else changed. -/
theorem take_out (ordered : Ordered s) {addr : Nat} (inside : addr ∈ s.timers) :
    OrderedBut { s with timers := s.timers.erase addr } [addr] := by
  have nodup := ordered.sorted.nodup
  exact
    { sorted := ordered.sorted.sublist List.erase_sublist
      out_nodup := List.nodup_singleton addr
      out_absent := by simpa using nodup.not_mem_erase
      live := by
        rintro a (here | here)
        · exact ordered.live a (.inl (List.mem_of_mem_erase here))
        · rw [List.mem_singleton.mp here]
          exact ordered.live addr (.inl inside)
      armed_iff := by
        intro a timer found
        rw [ordered.armed_iff a timer found]
        by_cases same : a = addr
        · simp [same, inside]
        · simp [same, nodup.mem_erase_iff] }

/-- The tickle at the front touches neither the set nor the objects. -/
theorem front (ordered : OrderedBut s out) (tickled : Bool) (fronts : Nat) :
    OrderedBut { s with tickled := tickled, fronts := fronts } out :=
  ⟨ordered.sorted, ordered.out_nodup, ordered.out_absent, ordered.live, ordered.armed_iff⟩

theorem addTimer (ordered : OrderedBut s out) {addr : Nat} (member : addr ∈ out) :
    OrderedBut (s.addTimer addr) (out.erase addr) ∧ addr ∈ (s.addTimer addr).timers := by
  have inserted := ordered.insert member
  have inside : addr ∈ (s.insert addr).timers :=
    (OrderedSet.mem_insert addr s.timers).mpr (.inl rfl)
  unfold TimerManager.addTimer
  simp only
  split
  · exact ⟨inserted.front true _, inside⟩
  · exact ⟨inserted, inside⟩

/-- A new object is out of the set until it is inserted. -/
theorem allocate (ordered : Ordered s) {addr : Nat} (fresh : s.object addr = none)
    (timer : Timer κ) (armed : timer.cb.isSome = true) :
    OrderedBut (s.store addr timer) [addr] := by
  -- a fresh address is in no set: every member of the set is a live object
  have absent : addr ∉ s.timers := by
    intro inside
    obtain ⟨t, found⟩ := ordered.live addr (.inl inside)
    simp [fresh] at found
  exact
    { sorted := (ordered.coherent.store absent timer).sorted
      out_nodup := List.nodup_singleton addr
      out_absent := by simpa using absent
      live := by
        intro a here
        by_cases same : a = addr
        · exact ⟨timer, by simp [same]⟩
        · have old : a ∈ s.timers := by simpa [same] using here
          simpa [Function.update_of_ne same] using ordered.live a (.inl old)
      armed_iff := by
        intro a t found
        by_cases same : a = addr
        · subst same
          simp only [store_object, Function.update_self, Option.some.injEq] at found
          subst found
          simp [armed]
        · rw [ordered.armed_iff a t (by simpa [Function.update_of_ne same] using found)]
          simp [same] }

end OrderedBut

section Calls

variable {s : TimerManager κ}

private theorem nextOf_of_object {addr : Nat} {timer : Timer κ}
    (found : s.object addr = some timer) : s.nextOf addr = timer.next := by
  simp [nextOf, found]

/-- Outside the set `m_next` is assigned without a fault. -/
private theorem setNext_absent (s : TimerManager κ) {addr : Nat} {timer : Timer κ}
    (found : s.object addr = some timer) (absent : addr ∉ s.timers) (next : UInt32) :
    s.setNext addr next = .ok (s.store addr { timer with next := next }) := by
  simp [setNext, deref, found, bind, Except.bind, absent]

theorem addtimer_ordered (ordered : Ordered s) (now : UInt64) {addr : Nat}
    (fresh : s.object addr = none) (ms : UInt64) {cb : Option κ} (non_null : cb.isSome = true)
    (recurring : Bool) : Ordered (s.addtimer now addr ms cb recurring) := by
  have out := ordered.allocate fresh ⟨recurring, ms, (now + ms).toUInt32, cb⟩ non_null
  simpa [addtimer] using (out.addTimer (List.mem_singleton.mpr rfl)).1

/-- `cancel` of an armed timer. -/
theorem cancel_eq (ordered : Ordered s) {addr : Nat} {timer : Timer κ}
    (found : s.object addr = some timer) (armed : timer.cb.isSome = true) :
    s.cancel addr = .ok (true, { s with timers := s.timers.erase addr }.store addr
      { timer with cb := none }) := by
  obtain ⟨inside, -⟩ := ordered.find_armed found armed
  -- clearing the callback first does not move the timer in the order
  have same : (s.store addr { timer with cb := none }).nextOf = s.nextOf := by
    rw [store_nextOf, ← nextOf_of_object found]
    exact Function.update_eq_self addr s.nextOf
  have at_addr : (s.store addr { timer with cb := none }).find addr = some addr := by
    rw [find, same]
    exact OrderedSet.find_of_mem ordered.sorted inside
  simp only [cancel, deref, found, bind, Except.bind, armed, if_true, at_addr, erase]
  rfl

/-- `refresh` of an armed timer: it is in the set, so `find` cannot give `end()`. -/
theorem refresh_eq (ordered : Ordered s) (now : UInt64) {addr : Nat} {timer : Timer κ}
    (found : s.object addr = some timer) (armed : timer.cb.isSome = true) :
    s.refresh now addr = .ok (true, ({ s with timers := s.timers.erase addr }.store addr
      { timer with next := (now + timer.ms).toUInt32 }).insert addr) := by
  obtain ⟨inside, at_addr⟩ := ordered.find_armed found armed
  have absent := (ordered.take_out inside).out_absent addr (List.mem_singleton.mpr rfl)
  have non_null : timer.cb.isNone = false := by simpa [Option.isNone_eq_false_iff] using armed
  simp only [refresh, deref, found, bind, Except.bind, non_null, Bool.false_eq_true, if_false,
    at_addr, erase]
  rw [setNext_absent { s with timers := s.timers.erase addr } found absent]

/-- The time from which `reset` counts. -/
def resetStart (now : UInt64) (timer : Timer κ) (from_now : Bool) : UInt64 :=
  if from_now then now else timer.next.toUInt64 - timer.ms

/-- `reset` of an armed timer, unless nothing changes: both assignments happen while the timer
is out of the set. -/
theorem reset_eq (ordered : Ordered s) (now : UInt64) {addr : Nat} {timer : Timer κ}
    (found : s.object addr = some timer) (armed : timer.cb.isSome = true) {ms : UInt64}
    {from_now : Bool} (changes : ¬(ms = timer.ms ∧ (!from_now) = true)) :
    s.reset now addr ms from_now = .ok (true, ((({ s with timers := s.timers.erase addr }.store addr
      { timer with ms := ms }).store addr { timer with
        ms := ms, next := (resetStart now timer from_now + ms).toUInt32 }).addTimer addr).insert
          addr) := by
  obtain ⟨inside, at_addr⟩ := ordered.find_armed found armed
  have absent := (ordered.take_out inside).out_absent addr (List.mem_singleton.mpr rfl)
  have non_null : timer.cb.isNone = false := by simpa [Option.isNone_eq_false_iff] using armed
  have stored : ({ s with timers := s.timers.erase addr }.store addr
      { timer with ms := ms }).object addr = some { timer with ms := ms } := by
    simp
  simp only [reset, deref, found, bind, Except.bind, if_neg changes, non_null, Bool.false_eq_true,
    if_false, at_addr, erase]
  rw [setNext_absent _ stored absent]
  rfl

theorem cancel_ordered (ordered : Ordered s) {addr : Nat} {timer : Timer κ}
    (found : s.object addr = some timer) :
    ∃ cancelled s', s.cancel addr = .ok (cancelled, s') ∧ Ordered s' := by
  by_cases armed : timer.cb.isSome = true
  · obtain ⟨inside, -⟩ := ordered.find_armed found armed
    refine ⟨true, _, cancel_eq ordered found armed, ?_⟩
    have gone := (ordered.take_out inside).disarm (List.mem_singleton.mpr rfl)
      { timer with cb := none } rfl
    rwa [List.erase_cons_head] at gone
  · exact ⟨false, s, by simp [cancel, deref, found, bind, Except.bind, armed], ordered⟩

theorem refresh_ordered (ordered : Ordered s) (now : UInt64) {addr : Nat} {timer : Timer κ}
    (found : s.object addr = some timer) :
    ∃ refreshed s', s.refresh now addr = .ok (refreshed, s') ∧ Ordered s' := by
  by_cases armed : timer.cb.isSome = true
  · obtain ⟨inside, -⟩ := ordered.find_armed found armed
    refine ⟨true, _, refresh_eq ordered now found armed, ?_⟩
    simpa using ((ordered.take_out inside).store_out (List.mem_singleton.mpr rfl)
      { timer with next := (now + timer.ms).toUInt32 } armed).insert
        (List.mem_singleton.mpr rfl)
  · have null : timer.cb = none := by simpa using armed
    exact ⟨false, s, by simp [refresh, deref, found, bind, Except.bind, null], ordered⟩

theorem reset_ordered (ordered : Ordered s) (now : UInt64) {addr : Nat} {timer : Timer κ}
    (found : s.object addr = some timer) (ms : UInt64) (from_now : Bool) :
    ∃ changed s', s.reset now addr ms from_now = .ok (changed, s') ∧ Ordered s' := by
  by_cases same : ms = timer.ms ∧ (!from_now) = true
  · exact ⟨true, s, by simp only [reset, deref, found, bind, Except.bind, if_pos same], ordered⟩
  by_cases armed : timer.cb.isSome = true
  · obtain ⟨inside, -⟩ := ordered.find_armed found armed
    refine ⟨true, _, reset_eq ordered now found armed same, ?_⟩
    have back := (((ordered.take_out inside).store_out (List.mem_singleton.mpr rfl)
      { timer with ms := ms } armed).store_out (List.mem_singleton.mpr rfl)
        { timer with ms := ms, next := (resetStart now timer from_now + ms).toUInt32 }
          armed).addTimer (List.mem_singleton.mpr rfl)
    simp only [List.erase_cons_head] at back
    exact back.1.insert_again back.2
  · have null : timer.cb = none := by simpa using armed
    refine ⟨false, s, ?_, ordered⟩
    simp only [reset, deref, found, bind, Except.bind, if_neg same, null, Option.isNone_none,
      if_true]

/-- What the loop of `listExpiredCb` makes of an expired timer. -/
def rearm (now : UInt64) (timer : Timer κ) : Timer κ :=
  if timer.recurring then { timer with next := (now + timer.ms).toUInt32 }
  else { timer with cb := none }

/-- `s'` is `s` after the timers `out`, taken out of its set, have fired. -/
structure Fired (s s' : TimerManager κ) (now : UInt64) (out : List Nat)
    (cbs : List (Option κ)) : Prop where
  callbacks : cbs = out.map fun a => (s.object a).bind Timer.cb
  object : ∀ a, s'.object a = if a ∈ out then (s.object a).map (rearm now) else s.object a
  timers : ∀ a, a ∈ s'.timers ↔
    a ∈ s.timers ∨ a ∈ out ∧ ∃ timer, s.object a = some timer ∧ timer.recurring = true

/-- The first timer of the loop, then the rest. -/
private theorem Fired.cons {mid s' : TimerManager κ} {now : UInt64} {addr : Nat} {rest : List Nat}
    {timer : Timer κ} {cbs : List (Option κ)} (found : s.object addr = some timer)
    (fresh : addr ∉ rest) (stored : mid.object = Function.update s.object addr (rearm now timer))
    (back : ∀ a, a ∈ mid.timers ↔ a ∈ s.timers ∨ a = addr ∧ timer.recurring = true)
    (fired : Fired mid s' now rest cbs) : Fired s s' now (addr :: rest) (timer.cb :: cbs) := by
  have later : ∀ a ∈ rest, mid.object a = s.object a := by
    intro a member
    rw [stored, Function.update_of_ne]
    rintro rfl
    exact fresh member
  refine ⟨?_, ?_, ?_⟩
  · rw [fired.callbacks, List.map_cons, found]
    refine congrArg _ (List.map_congr_left fun a member => ?_)
    rw [later a member]
  · intro a
    rw [fired.object]
    by_cases first : a = addr
    · subst first
      rw [if_neg fresh, if_pos List.mem_cons_self, stored, Function.update_self, found]
      rfl
    · by_cases member : a ∈ rest
      · rw [if_pos member, if_pos (List.mem_cons_of_mem _ member), later a member]
      · rw [if_neg member, if_neg (by simp [first, member]), stored, Function.update_of_ne first]
  · intro a
    rw [fired.timers, back]
    by_cases first : a = addr
    · subst first
      simp [fresh, found]
    · have same : mid.object a = s.object a := by rw [stored, Function.update_of_ne first]
      simp [first, same]

/-- One turn of the loop: the timer is re-armed and back in the set, or disarmed. -/
private theorem fire_turn (coherent : Coherent s) (now : UInt64) {addr : Nat} {timer : Timer κ}
    (found : s.object addr = some timer) (absent : addr ∉ s.timers) (rest : List Nat) :
    ∃ mid : TimerManager κ, Coherent mid ∧
      mid.object = Function.update s.object addr (some (rearm now timer)) ∧
      (∀ a, a ∈ mid.timers ↔ a ∈ s.timers ∨ a = addr ∧ timer.recurring = true) ∧
      fire now (addr :: rest) s =
        (fire now rest mid).map fun fired => (timer.cb :: fired.1, fired.2) := by
  by_cases recurring : timer.recurring = true
  · have stored := coherent.store absent { timer with next := (now + timer.ms).toUInt32 }
    refine ⟨_, stored.insert (Function.update_self ..), ?_, fun a => ?_, ?_⟩
    · rw [rearm, if_pos recurring]
      rfl
    · refine (OrderedSet.mem_insert addr s.timers).trans ?_
      rw [or_comm]
      simp [recurring]
    · simp only [fire, deref, found, bind, Except.bind, if_pos recurring]
      rw [setNext_absent s found absent]
      simp only
      cases fire now rest _ <;> rfl
  · refine ⟨_, coherent.store absent { timer with cb := none }, ?_, fun a => ?_, ?_⟩
    · rw [rearm, if_neg recurring]
      rfl
    · simp [recurring]
    · simp only [fire, deref, found, bind, Except.bind, if_neg recurring]
      cases fire now rest _ <;> rfl

/-- The loop returns when the timers it fires exist and are out of the set, armed or not. -/
theorem fire_fired (now : UInt64) {out : List Nat} (coherent : Coherent s) (nodup : out.Nodup)
    (absent : ∀ a ∈ out, a ∉ s.timers) (live : ∀ a ∈ out, ∃ timer, s.object a = some timer) :
    ∃ cbs s', fire now out s = .ok (cbs, s') ∧ Coherent s' ∧ Fired s s' now out cbs := by
  induction out generalizing s with
  | nil => exact ⟨[], s, rfl, coherent, rfl, by simp, by simp⟩
  -- the timers still to be fired stay out of the set: `ih` is about the rest of them
  | cons addr rest ih =>
    obtain ⟨fresh, nodup⟩ := List.nodup_cons.mp nodup
    obtain ⟨timer, found⟩ := live addr List.mem_cons_self
    obtain ⟨mid, coherent', stored, back, turn⟩ :=
      fire_turn coherent now found (absent addr List.mem_cons_self) rest
    have other : ∀ a ∈ rest, a ≠ addr := by
      rintro a member rfl
      exact fresh member
    obtain ⟨cbs, s', ran, final, fired⟩ := ih coherent' nodup
      (fun a member inside => by
        rcases (back a).mp inside with old | ⟨same, -⟩
        · exact absent a (List.mem_cons_of_mem _ member) old
        · exact other a member same)
      (fun a member => by
        rw [stored, Function.update_of_ne (other a member)]
        exact live a (List.mem_cons_of_mem _ member))
    refine ⟨timer.cb :: cbs, s', ?_, final, fired.cons found fresh stored back⟩
    rw [turn, ran]
    rfl

/-- An object is armed exactly when it is in the set, also after the loop. -/
theorem Fired.ordered {s' : TimerManager κ} {now : UInt64} {out : List Nat}
    {cbs : List (Option κ)} (ordered : OrderedBut s out) (coherent : Coherent s')
    (fired : Fired s s' now out cbs) : Ordered s' where
  sorted := coherent.sorted
  out_nodup := .nil
  out_absent := by simp
  live a here := coherent.live a (by simpa using here)
  armed_iff a timer found := by
    rw [fired.object] at found
    rw [fired.timers]
    by_cases gone : a ∈ out
    · rw [if_pos gone] at found
      obtain ⟨before, object, rfl⟩ := Option.map_eq_some_iff.mp found
      have armed := (ordered.armed_iff a before object).mpr (.inr gone)
      have absent := ordered.out_absent a gone
      cases recurring : before.recurring <;> simp [rearm, recurring, armed, absent, gone, object]
    · rw [if_neg gone] at found
      rw [ordered.armed_iff a timer found]
      simp [gone]

/-- The timers that `listExpiredCb` finds expired: `expired` in the source. -/
def expired (s : TimerManager κ) (now : UInt64) (probe : Nat) : List Nat :=
  OrderedSet.upTo (comparator (Function.update s.nextOf probe now.toUInt32)) probe s.timers

theorem expired_sublist (s : TimerManager κ) (now : UInt64) (probe : Nat) :
    (s.expired now probe).Sublist s.timers :=
  List.takeWhile_sublist _

/-- `upper_bound(now_timer)`: a timer due now is expired if its address is below the probe. -/
theorem mem_expired (coherent : Coherent s) (now : UInt64) {probe : Nat}
    (fresh : s.object probe = none) (addr : Nat) :
    addr ∈ s.expired now probe ↔ addr ∈ s.timers ∧
      ¬(now.toUInt32 < s.nextOf addr ∨ now.toUInt32 = s.nextOf addr ∧ probe < addr) := by
  have absent : ∀ a ∈ s.timers, a ≠ probe := by
    rintro a inside rfl
    obtain ⟨timer, found⟩ := coherent.live a inside
    rw [fresh] at found
    cases found
  have sorted : OrderedSet.Sorted (comparator (Function.update s.nextOf probe now.toUInt32))
      s.timers := coherent.sorted.congr fun a ha b hb =>
    comparator_update _ (absent a ha) (absent b hb)
  rw [expired, OrderedSet.mem_upTo sorted]
  refine and_congr_right fun inside => ?_
  rw [Bool.eq_false_iff, ne_eq, comparator_iff, Function.update_self,
    Function.update_of_ne (absent addr inside)]

/-- What the loop is entered with: the expired timers are taken off the front of the set. -/
theorem taken (coherent : Coherent s) (now : UInt64) (probe : Nat) :
    ∃ kept, s.listExpiredCb now probe =
        fire now (s.expired now probe) { s with timers := kept } ∧
      Coherent { s with timers := kept } ∧
      ∀ a, a ∈ kept ↔ a ∈ s.timers ∧ a ∉ s.expired now probe := by
  unfold listExpiredCb
  split
  next empty =>
    have nothing : s.timers = [] := List.isEmpty_iff.mp empty
    have whole : { s with timers := [] } = s := by rw [← nothing]
    have none_expired : s.expired now probe = [] := by simp [expired, OrderedSet.upTo, nothing]
    refine ⟨[], ?_, ?_, by simp [nothing]⟩
    · rw [none_expired, whole]
      rfl
    · rw [whole]
      exact coherent
  next =>
    simp only [expired]
    generalize comparator (Function.update s.nextOf probe now.toUInt32) = less
    -- any cut of the sequence will do, so nothing is used of `upper_bound`
    have whole := OrderedSet.upTo_append_beyond less probe s.timers
    have nodup := coherent.sorted.nodup
    have sorted := coherent.sorted
    rw [← whole] at nodup sorted
    have member : ∀ a, a ∈ s.timers ↔
        a ∈ OrderedSet.upTo less probe s.timers ∨ a ∈ OrderedSet.beyond less probe s.timers := by
      intro a
      rw [← List.mem_append, whole]
    refine ⟨_, rfl, ⟨(List.pairwise_append.mp sorted).2.1, fun a kept => ?_⟩, fun a => ?_⟩
    · exact coherent.live a ((member a).mpr (.inr kept))
    · rw [member a]
      constructor
      · exact fun kept => ⟨.inr kept, fun gone =>
          (List.nodup_append.mp nodup).2.2 a gone a kept rfl⟩
      · rintro ⟨here, stays⟩
        exact here.resolve_left stays

/-- `listExpiredCb` returns for every set of timers that exist, whatever their callbacks. -/
theorem listExpiredCb_fired (coherent : Coherent s) (now : UInt64) (probe : Nat) :
    ∃ cbs s' kept, s.listExpiredCb now probe = .ok (cbs, s') ∧ Coherent s' ∧
      Coherent { s with timers := kept } ∧
      Fired { s with timers := kept } s' now (s.expired now probe) cbs ∧
      ∀ a, a ∈ kept ↔ a ∈ s.timers ∧ a ∉ s.expired now probe := by
  obtain ⟨kept, entered, rest, kept_iff⟩ := taken coherent now probe
  have sublist := expired_sublist s now probe
  obtain ⟨cbs, s', ran, final, fired⟩ := fire_fired now rest
    (sublist.nodup coherent.sorted.nodup) (fun a gone here => ((kept_iff a).mp here).2 gone)
    (fun a gone => coherent.live a (sublist.subset gone))
  exact ⟨cbs, s', kept, entered.trans ran, final, rest, fired, kept_iff⟩

theorem listExpiredCb_spec (ordered : Ordered s) (now : UInt64) (probe : Nat) :
    ∃ cbs s' kept, s.listExpiredCb now probe = .ok (cbs, s') ∧ Ordered s' ∧
      Fired { s with timers := kept } s' now (s.expired now probe) cbs ∧
      ∀ a, a ∈ kept ↔ a ∈ s.timers ∧ a ∉ s.expired now probe := by
  obtain ⟨cbs, s', kept, ran, final, rest, fired, kept_iff⟩ :=
    listExpiredCb_fired ordered.coherent now probe
  refine ⟨cbs, s', kept, ran, fired.ordered ?_ final, fired, kept_iff⟩
  have sublist := expired_sublist s now probe
  have split_mem : ∀ a, a ∈ kept ∨ a ∈ s.expired now probe ↔ a ∈ s.timers := by
    intro a
    rw [kept_iff]
    constructor
    · rintro (⟨inside, -⟩ | gone)
      · exact inside
      · exact sublist.subset gone
    · intro inside
      by_cases gone : a ∈ s.expired now probe
      · exact .inr gone
      · exact .inl ⟨inside, gone⟩
  exact
    { sorted := rest.sorted
      out_nodup := sublist.nodup ordered.sorted.nodup
      out_absent := fun a gone here => ((kept_iff a).mp here).2 gone
      live := fun a here => ordered.live a (.inl ((split_mem a).mp here))
      armed_iff := fun a timer found => by
        rw [ordered.armed_iff a timer found, split_mem a]
        simp }

theorem release_ordered (ordered : Ordered s) {addr : Nat} (absent : addr ∉ s.timers) :
    Ordered (s.release addr) where
  sorted := by
    refine ordered.sorted.congr fun a ha b hb => ?_
    -- the freed object is not in the set
    have keep : ∀ x ∈ s.timers, (s.release addr).nextOf x = s.nextOf x := by
      intro x hx
      have differ : x ≠ addr := by
        rintro rfl
        exact absent hx
      simp [nextOf, release, Function.update_of_ne differ]
    simp only [comparator, keep a ha, keep b hb]
  out_nodup := .nil
  out_absent := by simp
  live a here := by
    have inside : a ∈ s.timers := by simpa [release] using here
    have differ : a ≠ addr := by
      rintro rfl
      exact absent inside
    simpa [release, Function.update_of_ne differ] using ordered.live a (.inl inside)
  armed_iff a timer found := by
    by_cases same : a = addr
    · simp [release, same] at found
    · exact ordered.armed_iff a timer (by simpa [release, Function.update_of_ne same] using found)

end Calls

/-! ### Runs -/

inductive Call (φ ω : Type) where
  | addtimer (now : UInt64) (addr : Nat) (ms : UInt64) (cb : φ) (recurring : Bool)
  | addConditionTimer (now : UInt64) (addr : Nat) (ms : UInt64) (cb : φ) (weak_cond : ω)
      (recurring : Bool)
  | cancel (addr : Nat)
  | refresh (now : UInt64) (addr : Nat)
  | reset (now : UInt64) (addr : Nat) (ms : UInt64) (from_now : Bool)
  | listExpiredCb (now : UInt64) (probe : Nat)
  | release (addr : Nat)

variable {φ ω : Type}

def perform (s : TimerManager (Callback φ ω)) :
    Call φ ω → Except TimerFault (TimerManager (Callback φ ω))
  | .addtimer now addr ms cb recurring => .ok (s.addtimer now addr ms (some (.user cb)) recurring)
  | .addConditionTimer now addr ms cb weak_cond recurring =>
    .ok (s.addConditionTimer now addr ms (some cb) weak_cond recurring)
  | .cancel addr => (s.cancel addr).map Prod.snd
  | .refresh now addr => (s.refresh now addr).map Prod.snd
  | .reset now addr ms from_now => (s.reset now addr ms from_now).map Prod.snd
  | .listExpiredCb now probe => (s.listExpiredCb now probe).map Prod.snd
  | .release addr => .ok (s.release addr)

/-- What the allocator and the shared pointers guarantee of a call: a new object gets
an unused address, a call goes through a live handle, and an object is freed only
when the set does not hold it. -/
def Permitted (s : TimerManager (Callback φ ω)) : Call φ ω → Prop
  | .addtimer _ addr _ _ _ => s.object addr = none
  | .addConditionTimer _ addr _ _ _ _ => s.object addr = none
  | .cancel addr => (s.object addr).isSome
  | .refresh _ addr => (s.object addr).isSome
  | .reset _ addr _ _ => (s.object addr).isSome
  | .listExpiredCb _ probe => s.object probe = none
  | .release addr => addr ∉ s.timers

private theorem map_snd_ordered {β : Type} {x : Except TimerFault (β × TimerManager κ)}
    (returns : ∃ b s', x = .ok (b, s') ∧ Ordered s') :
    ∃ s', x.map Prod.snd = .ok s' ∧ Ordered s' := by
  obtain ⟨b, s', ran, ordered⟩ := returns
  exact ⟨s', by rw [ran]; rfl, ordered⟩

theorem perform_ordered {s : TimerManager (Callback φ ω)} (ordered : Ordered s)
    (call : Call φ ω) (permitted : Permitted s call) :
    ∃ s', perform s call = .ok s' ∧ Ordered s' := by
  cases call with
  | addtimer now addr ms cb recurring =>
    exact ⟨_, rfl, addtimer_ordered ordered now permitted ms rfl recurring⟩
  | addConditionTimer now addr ms cb weak_cond recurring =>
    exact ⟨_, rfl, addtimer_ordered ordered now permitted ms rfl recurring⟩
  | cancel addr =>
    obtain ⟨timer, found⟩ := Option.isSome_iff_exists.mp permitted
    exact map_snd_ordered (cancel_ordered ordered found)
  | refresh now addr =>
    obtain ⟨timer, found⟩ := Option.isSome_iff_exists.mp permitted
    exact map_snd_ordered (refresh_ordered ordered now found)
  | reset now addr ms from_now =>
    obtain ⟨timer, found⟩ := Option.isSome_iff_exists.mp permitted
    exact map_snd_ordered (reset_ordered ordered now found ms from_now)
  | listExpiredCb now probe =>
    obtain ⟨cbs, s', -, ran, ordered', -⟩ := listExpiredCb_spec ordered now probe
    exact map_snd_ordered ⟨cbs, s', ran, ordered'⟩
  | release addr => exact ⟨_, rfl, release_ordered ordered permitted⟩

/-- Every run of calls on a fresh manager returns: no call erases `end()` and none
assigns `m_next` of a timer in the set. It ends with the set strictly sorted by
`(m_next, address)`, each timer in it once, and in it exactly when armed. -/
theorem run_ordered (calls : List (Call φ ω)) (legal : Legal perform Permitted empty calls) :
    ∃ s, Run.calls perform empty calls = .ok s ∧
      (s.timers.Pairwise fun a b =>
        s.nextOf a < s.nextOf b ∨ (s.nextOf a = s.nextOf b ∧ a < b)) ∧
      s.timers.Nodup ∧
      (∀ addr timer, s.object addr = some timer → (addr ∈ s.timers ↔ timer.cb.isSome = true)) ∧
      ∀ addr, (s.object addr).isSome = true → ∃ cancelled, s.cancel addr = .ok cancelled := by
  obtain ⟨s, ran, ordered⟩ := calls_safe Ordered (fun _ call held permitted =>
    perform_ordered held call permitted) empty_ordered legal
  refine ⟨s, ran, ordered.sorted.imp fun {a b} before => comparator_iff.mp before,
    ordered.sorted.nodup, ?_, ?_⟩
  · intro addr timer found
    rw [ordered.armed_iff addr timer found]
    simp
  · intro addr live
    obtain ⟨timer, found⟩ := Option.isSome_iff_exists.mp live
    obtain ⟨cancelled, s', returned, -⟩ := cancel_ordered ordered found
    exact ⟨_, returned⟩

/-- Two timers, the second re-armed before the first, the first cancelled. -/
theorem run_ordered_rearm_and_cancel :
    Legal perform Permitted empty
        [.addtimer 10 1 5 () false, .addConditionTimer 10 2 9 () () true, .reset 11 2 1 true,
          .cancel (1 : Nat)] ∧
      ∃ s, Run.calls perform empty
        [.addtimer 10 1 5 () false, .addConditionTimer 10 2 9 () () true, .reset 11 2 1 true,
          .cancel (1 : Nat)] = .ok s ∧ s.timers.Nodup := by
  have legal : Legal perform Permitted empty
      [.addtimer 10 1 5 () false, .addConditionTimer 10 2 9 () () true, .reset 11 2 1 true,
        .cancel (1 : Nat)] := by
    refine ⟨rfl, fun s₁ h₁ => ?_⟩
    cases h₁
    refine ⟨rfl, fun s₂ h₂ => ?_⟩
    cases h₂
    refine ⟨rfl, fun s₃ h₃ => ?_⟩
    cases h₃
    exact ⟨rfl, fun _ _ => trivial⟩
  obtain ⟨s, ran, -, nodup, -⟩ := run_ordered _ legal
  exact ⟨legal, s, ran, nodup⟩

end Dwframe.TimerManager
