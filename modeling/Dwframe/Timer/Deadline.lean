import Mathlib.Algebra.GroupWithZero.Nat
import Dwframe.Timer.Invariant

/-!
# Deadlines

What a client asks of its timers, in its own terms: an `Arming` is a start, a delay and whether
the timer recurs, and its deadline is their sum, without a bound. `Schedule` says which timers
are armed how. The manager keeps a deadline in the 32 bits of `m_next`; as long as the deadlines
and the clock values `listExpiredCb` is called at fit there, `Tracks` holds along a run: the set
holds the armed timers and their `m_next` is their deadline.
-/
namespace Dwframe.TimerManager

open Lib Lib.Run

variable {κ φ ω : Type}

structure Arming where
  start : Nat
  delay : Nat
  recurring : Bool
  deriving DecidableEq, Repr

def Arming.deadline (arming : Arming) : Nat := arming.start + arming.delay

/-- How each timer object is armed. -/
abbrev Schedule : Type := Nat → Option Arming

inductive Request (φ ω : Type) where
  | call (call : Call φ ω)
  | getNextTimer (now : UInt64)

/-- A manager with the schedule its client has asked for. -/
structure Clocked (φ ω : Type) where
  manager : TimerManager (Callback φ ω)
  schedule : Schedule

/-- The schedule after a call; `returned` are the timers `listExpiredCb` has returned. -/
def Schedule.after (schedule : Schedule) (returned : List Nat) : Call φ ω → Schedule
  | .addtimer now addr ms _ recurring =>
    Function.update schedule addr (some ⟨now.toNat, ms.toNat, recurring⟩)
  | .addConditionTimer now addr ms _ _ recurring =>
    Function.update schedule addr (some ⟨now.toNat, ms.toNat, recurring⟩)
  | .cancel addr => Function.update schedule addr none
  | .refresh now addr =>
    Function.update schedule addr ((schedule addr).map fun arming =>
      { arming with start := now.toNat })
  | .reset now addr ms from_now =>
    Function.update schedule addr ((schedule addr).map fun arming =>
      { arming with
        start := if from_now then now.toNat else arming.start
        delay := ms.toNat })
  | .listExpiredCb now _ => fun addr =>
    if addr ∈ returned then
      (schedule addr).bind fun arming =>
        if arming.recurring then some { arming with start := now.toNat } else none
    else schedule addr
  | .release _ => schedule

namespace Clocked

def initial : Clocked φ ω := ⟨.empty, fun _ => none⟩

/-- The timers a call returns. -/
def returned (c : Clocked φ ω) : Call φ ω → List Nat
  | .listExpiredCb now probe => c.manager.expired now probe
  | _ => []

def step (c : Clocked φ ω) : Request φ ω → Except TimerFault (Clocked φ ω)
  | .call call => do
    let manager ← perform c.manager call
    .ok ⟨manager, c.schedule.after (c.returned call) call⟩
  | .getNextTimer now => do
    let (_, manager) ← c.manager.getNextTimer now
    .ok { c with manager := manager }

def Permitted (c : Clocked φ ω) : Request φ ω → Prop
  | .call call => TimerManager.Permitted c.manager call
  | .getNextTimer _ => True

/-- The deadlines the request arms, and the clock it compares them with, fit in 32 bits. -/
def Fits (c : Clocked φ ω) : Request φ ω → Prop
  | .call (.addtimer now _ ms _ _) => now.toNat + ms.toNat < 2 ^ 32
  | .call (.addConditionTimer now _ ms _ _ _) => now.toNat + ms.toNat < 2 ^ 32
  | .call (.refresh now addr) =>
    ∀ arming, c.schedule addr = some arming → now.toNat + arming.delay < 2 ^ 32
  | .call (.reset now addr ms from_now) =>
    ∀ arming, c.schedule addr = some arming →
      (if from_now then now.toNat else arming.start) + ms.toNat < 2 ^ 32
  | .call (.listExpiredCb now _) =>
    ∀ addr arming, c.schedule addr = some arming → now.toNat < 2 ^ 32 ∧
      (arming.recurring = true → arming.deadline ≤ now.toNat →
        now.toNat + arming.delay < 2 ^ 32)
  | _ => True

/-- What the request does in terms of the schedule. `listExpiredCb` returns the callbacks of
timers whose deadline is not later than the clock, among them all whose deadline is earlier;
`getNextTimer` returns the time to the earliest deadline. -/
def Punctual (c : Clocked φ ω) : Request φ ω → Prop
  | .call (.listExpiredCb now probe) =>
    ∃ cbs manager, c.manager.listExpiredCb now probe = .ok (cbs, manager) ∧
      cbs = (c.manager.expired now probe).map (fun a => (c.manager.object a).bind Timer.cb) ∧
      (∀ addr ∈ c.manager.expired now probe, ∃ arming, c.schedule addr = some arming ∧
        arming.deadline ≤ now.toNat) ∧
      ∀ addr arming, c.schedule addr = some arming → arming.deadline < now.toNat →
        addr ∈ c.manager.expired now probe
  | .getNextTimer now =>
    ∃ ms manager, c.manager.getNextTimer now = .ok (ms, manager) ∧
      ((∀ addr, c.schedule addr = none) → ms.toNat = 2 ^ 64 - 1) ∧
      ∀ addr arming, c.schedule addr = some arming →
        (∀ other arming', c.schedule other = some arming' → arming.deadline ≤ arming'.deadline) →
        ms.toNat = arming.deadline - now.toNat
  | _ => True

end Clocked

/-! ### The set holds the schedule -/

/-- A timer object that is armed as `arming` says. -/
structure Holds (timer : Timer κ) (arming : Arming) : Prop where
  next : timer.next.toNat = arming.deadline
  ms : timer.ms.toNat = arming.delay
  recurring : timer.recurring = arming.recurring

structure Tracks (s : TimerManager κ) (schedule : Schedule) : Prop where
  ordered : Ordered s
  armed : ∀ addr, addr ∈ s.timers ↔ (schedule addr).isSome = true
  holds : ∀ addr arming timer, schedule addr = some arming → s.object addr = some timer →
    Holds timer arming

theorem tracks_empty : Tracks (empty : TimerManager κ) fun _ => none where
  ordered := empty_ordered
  armed := by simp [empty]
  holds := by simp

/-- The stored deadline of a sum that fits. -/
theorem toNat_next {now ms : UInt64} (fits : now.toNat + ms.toNat < 2 ^ 32) :
    (now + ms).toUInt32.toNat = now.toNat + ms.toNat := by
  rw [UInt64.toNat_toUInt32, UInt64.toNat_add]
  omega

namespace Tracks

variable {s s' : TimerManager κ} {schedule : Schedule}

theorem live (tracks : Tracks s schedule) {addr : Nat} {arming : Arming}
    (scheduled : schedule addr = some arming) :
    ∃ timer, s.object addr = some timer ∧ timer.cb.isSome = true ∧ addr ∈ s.timers ∧
      Holds timer arming := by
  have inside : addr ∈ s.timers := (tracks.armed addr).mpr (by simp [scheduled])
  obtain ⟨timer, found⟩ := tracks.ordered.live addr (.inl inside)
  exact ⟨timer, found, (tracks.ordered.armed_iff addr timer found).mpr (.inl inside), inside,
    tracks.holds addr arming timer scheduled found⟩

/-- One timer is armed anew, the others stay. -/
theorem rearmed (tracks : Tracks s schedule) (ordered : Ordered s') {addr : Nat} {timer : Timer κ}
    {arming : Arming} (object : s'.object = Function.update s.object addr (some timer))
    (timers : ∀ a, a ∈ s'.timers ↔ a = addr ∨ a ∈ s.timers) (holds : Holds timer arming) :
    Tracks s' (Function.update schedule addr (some arming)) where
  ordered := ordered
  armed a := by
    rw [timers]
    by_cases same : a = addr
    · simp [same]
    · simp [same, tracks.armed]
  holds a arming' timer' scheduled found := by
    by_cases same : a = addr
    · subst same
      rw [Function.update_self] at scheduled
      rw [object, Function.update_self] at found
      cases scheduled
      cases found
      exact holds
    · rw [Function.update_of_ne same] at scheduled
      rw [object, Function.update_of_ne same] at found
      exact tracks.holds a arming' timer' scheduled found

/-- One timer is disarmed. -/
theorem disarmed (tracks : Tracks s schedule) (ordered : Ordered s') {addr : Nat}
    (object : ∀ a, a ≠ addr → s'.object a = s.object a)
    (timers : ∀ a, a ∈ s'.timers ↔ a ≠ addr ∧ a ∈ s.timers) :
    Tracks s' (Function.update schedule addr none) where
  ordered := ordered
  armed a := by
    rw [timers]
    by_cases same : a = addr
    · simp [same]
    · simp [same, tracks.armed]
  holds a arming timer scheduled found := by
    by_cases same : a = addr
    · simp [same] at scheduled
    · rw [Function.update_of_ne same] at scheduled
      rw [object a same] at found
      exact tracks.holds a arming timer scheduled found

/-- A timer whose callback is null is not scheduled. -/
theorem unscheduled (tracks : Tracks s schedule) {addr : Nat} {timer : Timer κ}
    (found : s.object addr = some timer) (null : ¬timer.cb.isSome = true) :
    schedule addr = none := by
  by_contra scheduled
  obtain ⟨arming, scheduled⟩ := Option.ne_none_iff_exists'.mp scheduled
  obtain ⟨timer', found', armed, -⟩ := tracks.live scheduled
  rw [found] at found'
  cases found'
  exact null armed

/-- A timer with a callback is scheduled. -/
theorem scheduled (tracks : Tracks s schedule) {addr : Nat} {timer : Timer κ}
    (found : s.object addr = some timer) (armed : timer.cb.isSome = true) :
    ∃ arming, schedule addr = some arming ∧ Holds timer arming := by
  have inside : addr ∈ s.timers := by
    simpa using (tracks.ordered.armed_iff addr timer found).mp armed
  obtain ⟨arming, scheduled⟩ := Option.isSome_iff_exists.mp ((tracks.armed addr).mp inside)
  exact ⟨arming, scheduled, tracks.holds addr arming timer scheduled found⟩

end Tracks

/-! ### One call -/

section Calls

variable {s : TimerManager κ} {schedule : Schedule}

@[simp] theorem insert_object (s : TimerManager κ) (addr : Nat) :
    (s.insert addr).object = s.object := rfl

theorem mem_insert_timers (s : TimerManager κ) (addr a : Nat) :
    a ∈ (s.insert addr).timers ↔ a = addr ∨ a ∈ s.timers :=
  OrderedSet.mem_insert addr s.timers

@[simp] theorem addTimer_object (s : TimerManager κ) (addr : Nat) :
    (s.addTimer addr).object = s.object := by
  unfold addTimer
  simp only
  split <;> rfl

theorem mem_addTimer (s : TimerManager κ) (addr a : Nat) :
    a ∈ (s.addTimer addr).timers ↔ a = addr ∨ a ∈ s.timers := by
  unfold addTimer
  simp only
  split <;> exact OrderedSet.mem_insert addr s.timers

theorem addtimer_tracks (tracks : Tracks s schedule) {now : UInt64} {addr : Nat}
    (fresh : s.object addr = none) {ms : UInt64} (fits : now.toNat + ms.toNat < 2 ^ 32)
    {cb : Option κ} (non_null : cb.isSome = true) (recurring : Bool) :
    Tracks (s.addtimer now addr ms cb recurring)
      (Function.update schedule addr (some ⟨now.toNat, ms.toNat, recurring⟩)) := by
  have holds : Holds (⟨recurring, ms, (now + ms).toUInt32, cb⟩ : Timer κ)
      ⟨now.toNat, ms.toNat, recurring⟩ := ⟨toNat_next fits, rfl, rfl⟩
  refine tracks.rearmed (addtimer_ordered tracks.ordered now fresh ms non_null recurring)
    ?_ (fun a => mem_addTimer _ addr a) holds
  rw [addtimer, addTimer_object, store_object]

theorem cancel_tracks (tracks : Tracks s schedule) {addr : Nat} {timer : Timer κ}
    (found : s.object addr = some timer) :
    ∃ cancelled s', s.cancel addr = .ok (cancelled, s') ∧
      Tracks s' (Function.update schedule addr none) := by
  obtain ⟨cancelled, s', ran, ordered⟩ := cancel_ordered tracks.ordered found
  refine ⟨cancelled, s', ran, ?_⟩
  by_cases armed : timer.cb.isSome = true
  · rw [cancel_eq tracks.ordered found armed] at ran
    cases ran
    refine tracks.disarmed ordered ?_ ?_
    · intro a differ
      simp [Function.update_of_ne differ]
    · intro a
      exact tracks.ordered.sorted.nodup.mem_erase_iff
  · simp only [cancel, deref, found, bind, Except.bind, if_neg armed] at ran
    cases ran
    rw [Function.update_eq_self_iff.mpr (tracks.unscheduled found armed).symm]
    exact tracks

/-- Taking an armed timer out of the set and putting it back keeps the members. -/
private theorem mem_back {addr : Nat} (tracks : Tracks s schedule) (a : Nat) :
    (a = addr ∨ a ∈ s.timers.erase addr) ↔ a = addr ∨ a ∈ s.timers := by
  rw [tracks.ordered.sorted.nodup.mem_erase_iff]
  tauto

/-- A timer started again, with the delay it has. -/
theorem Holds.restarted {timer : Timer κ} {arming : Arming} (holds : Holds timer arming)
    {now : UInt64} (fits : now.toNat + arming.delay < 2 ^ 32) :
    Holds { timer with next := (now + timer.ms).toUInt32 } { arming with start := now.toNat } := by
  rw [← holds.ms] at fits
  refine ⟨?_, holds.ms, holds.recurring⟩
  rw [Arming.deadline, ← holds.ms]
  exact toNat_next fits

/-- A change of an arming leaves the schedule alone where there is none. -/
theorem Tracks.update_unarmed {addr : Nat} {timer : Timer κ} (tracks : Tracks s schedule)
    (found : s.object addr = some timer) (unarmed : ¬timer.cb.isSome = true)
    (change : Arming → Arming) :
    Function.update schedule addr ((schedule addr).map change) = schedule := by
  rw [tracks.unscheduled found unarmed]
  exact Function.update_eq_self_iff.mpr (tracks.unscheduled found unarmed).symm

theorem refresh_tracks (tracks : Tracks s schedule) {now : UInt64} {addr : Nat} {timer : Timer κ}
    (found : s.object addr = some timer)
    (fits : ∀ arming, schedule addr = some arming → now.toNat + arming.delay < 2 ^ 32) :
    ∃ refreshed s', s.refresh now addr = .ok (refreshed, s') ∧
      Tracks s' (Function.update schedule addr ((schedule addr).map fun arming =>
        { arming with start := now.toNat })) := by
  obtain ⟨refreshed, s', ran, ordered⟩ := refresh_ordered tracks.ordered now found
  refine ⟨refreshed, s', ran, ?_⟩
  by_cases armed : timer.cb.isSome = true
  · rw [refresh_eq tracks.ordered now found armed] at ran
    cases ran
    obtain ⟨arming, scheduled, holds⟩ := tracks.scheduled found armed
    rw [scheduled]
    apply tracks.rearmed ordered rfl _ (holds.restarted (fits arming scheduled))
    intro a
    exact (mem_insert_timers _ addr a).trans (mem_back tracks a)
  · have null : timer.cb = none := by simpa using armed
    simp only [refresh, deref, found, bind, Except.bind, null, Option.isNone_none, if_true] at ran
    cases ran
    rw [tracks.update_unarmed found armed]
    exact tracks

/-- The start that `reset` recovers from `m_next`. -/
theorem toNat_resetStart {timer : Timer κ} {arming : Arming} (holds : Holds timer arming)
    (now : UInt64) (from_now : Bool) :
    (resetStart now timer from_now).toNat = if from_now then now.toNat else arming.start := by
  cases from_now with
  | true => rfl
  | false =>
    have next := holds.next
    have ms := holds.ms
    have bound := timer.next.toNat_lt
    rw [Arming.deadline] at next
    simp only [resetStart, Bool.false_eq_true, if_false]
    rw [UInt64.toNat_sub, UInt32.toNat_toUInt64]
    omega

theorem reset_tracks (tracks : Tracks s schedule) {now : UInt64} {addr : Nat} {timer : Timer κ}
    (found : s.object addr = some timer) {ms : UInt64} {from_now : Bool}
    (fits : ∀ arming, schedule addr = some arming →
      (if from_now then now.toNat else arming.start) + ms.toNat < 2 ^ 32) :
    ∃ changed s', s.reset now addr ms from_now = .ok (changed, s') ∧
      Tracks s' (Function.update schedule addr ((schedule addr).map fun arming =>
        { arming with
          start := if from_now then now.toNat else arming.start
          delay := ms.toNat })) := by
  obtain ⟨changed, s', ran, ordered⟩ := reset_ordered tracks.ordered now found ms from_now
  refine ⟨changed, s', ran, ?_⟩
  by_cases armed : timer.cb.isSome = true
  · obtain ⟨arming, scheduled, holds⟩ := tracks.scheduled found armed
    have small := fits arming scheduled
    rw [scheduled]
    by_cases same : ms = timer.ms ∧ (!from_now) = true
    · -- nothing changes, neither in the manager nor in the schedule
      simp only [reset, deref, found, bind, Except.bind, if_pos same] at ran
      cases ran
      obtain ⟨rfl, kept⟩ := same
      have kept : from_now = false := by simpa using kept
      subst kept
      rw [Function.update_eq_self_iff.mpr]
      · exact tracks
      · simp [scheduled, holds.ms]
    · rw [reset_eq tracks.ordered now found armed same] at ran
      cases ran
      rw [← toNat_resetStart holds now from_now] at small
      have holds' : Holds { timer with
          ms := ms, next := (resetStart now timer from_now + ms).toUInt32 }
          { arming with
            start := if from_now then now.toNat else arming.start
            delay := ms.toNat } := by
        refine ⟨?_, rfl, holds.recurring⟩
        rw [Arming.deadline, ← toNat_resetStart holds now from_now]
        exact toNat_next small
      refine tracks.rearmed ordered ?_ ?_ holds'
      · rw [insert_object, addTimer_object, store_object, store_object, Function.update_idem]
      · intro a
        refine (mem_insert_timers _ addr a).trans ?_
        rw [mem_addTimer]
        change (a = addr ∨ a = addr ∨ a ∈ s.timers.erase addr) ↔ _
        rw [mem_back tracks]
        tauto
  · have null : timer.cb = none := by simpa using armed
    have unchanged : s' = s := by
      simp only [reset, deref, found, bind, Except.bind, null, Option.isNone_none, if_true] at ran
      split at ran <;> cases ran <;> rfl
    rw [tracks.update_unarmed found armed, unchanged]
    exact tracks

theorem release_tracks (tracks : Tracks s schedule) {addr : Nat} (absent : addr ∉ s.timers) :
    Tracks (s.release addr) schedule where
  ordered := release_ordered tracks.ordered absent
  armed := tracks.armed
  holds a arming timer scheduled found := by
    by_cases same : a = addr
    · simp [release, same] at found
    · simp only [release, Function.update_of_ne same] at found
      exact tracks.holds a arming timer scheduled found

/-! ### The clock is consulted -/

/-- The deadline is what the comparator reads. -/
theorem Tracks.nextOf (tracks : Tracks s schedule) {addr : Nat} {arming : Arming}
    (scheduled : schedule addr = some arming) : (s.nextOf addr).toNat = arming.deadline := by
  obtain ⟨timer, found, -, -, holds⟩ := tracks.live scheduled
  rw [TimerManager.nextOf, found]
  exact holds.next

theorem expired_due (tracks : Tracks s schedule) {now : UInt64} {probe : Nat}
    (fresh : s.object probe = none) (small : now.toNat < 2 ^ 32) {addr : Nat} {arming : Arming}
    (scheduled : schedule addr = some arming) (gone : addr ∈ s.expired now probe) :
    arming.deadline ≤ now.toNat := by
  have due := ((mem_expired tracks.ordered.coherent now fresh addr).mp gone).2
  rw [UInt32.lt_iff_toNat_lt, UInt64.toNat_toUInt32, tracks.nextOf scheduled] at due
  omega

theorem due_expired (tracks : Tracks s schedule) {now : UInt64} {probe : Nat}
    (fresh : s.object probe = none) (small : now.toNat < 2 ^ 32) {addr : Nat} {arming : Arming}
    (scheduled : schedule addr = some arming) (due : arming.deadline < now.toNat) :
    addr ∈ s.expired now probe := by
  obtain ⟨-, -, -, inside, -⟩ := tracks.live scheduled
  refine (mem_expired tracks.ordered.coherent now fresh addr).mpr ⟨inside, ?_⟩
  rw [UInt32.lt_iff_toNat_lt, ← UInt32.toNat_inj, UInt64.toNat_toUInt32, tracks.nextOf scheduled]
  omega

/-- `listExpiredCb` when the deadlines it arms fit; the clock itself may be past 32 bits. -/
theorem listExpiredCb_rearms (tracks : Tracks s schedule) {now : UInt64} {probe : Nat}
    (fresh : s.object probe = none)
    (fits : ∀ addr ∈ s.expired now probe, ∀ arming, schedule addr = some arming →
      arming.recurring = true → now.toNat + arming.delay < 2 ^ 32) :
    ∃ cbs s', s.listExpiredCb now probe = .ok (cbs, s') ∧
      cbs = (s.expired now probe).map (fun a => (s.object a).bind Timer.cb) ∧
      Tracks s' fun addr =>
        if addr ∈ s.expired now probe then
          (schedule addr).bind fun arming =>
            if arming.recurring then some { arming with start := now.toNat } else none
        else schedule addr := by
  obtain ⟨cbs, s', kept, ran, ordered, fired, kept_iff⟩ :=
    listExpiredCb_spec tracks.ordered now probe
  have inside : ∀ a ∈ s.expired now probe, a ∈ s.timers := fun a gone =>
    ((mem_expired tracks.ordered.coherent now fresh a).mp gone).1
  refine ⟨cbs, s', ran, fired.callbacks, ordered, ?_, ?_⟩
  · intro a
    rw [fired.timers, kept_iff]
    by_cases gone : a ∈ s.expired now probe
    · -- an expired timer is back if it recurs
      obtain ⟨arming, scheduled⟩ :=
        Option.isSome_iff_exists.mp ((tracks.armed a).mp (inside a gone))
      obtain ⟨timer, found, -, -, holds⟩ := tracks.live scheduled
      simp only [gone, found, scheduled, not_true_eq_false, and_false, false_or, true_and,
        Option.some.injEq, exists_eq_left', if_true, Option.bind_some, holds.recurring]
      cases arming.recurring <;> simp
    · simp only [gone, not_false_eq_true, and_true, false_and, or_false, if_false]
      exact tracks.armed a
  · intro a arming timer scheduled found
    rw [fired.object] at found
    by_cases gone : a ∈ s.expired now probe
    · rw [if_pos gone] at scheduled found
      obtain ⟨arming, before, rearmed⟩ := Option.bind_eq_some_iff.mp scheduled
      obtain ⟨timer, object, rfl⟩ := Option.map_eq_some_iff.mp found
      have holds := tracks.holds a arming timer before object
      split at rearmed
      next recurring =>
        cases rearmed
        rw [rearm, if_pos (holds.recurring.trans recurring)]
        exact holds.restarted (fits a gone arming before recurring)
      next => cases rearmed
    · rw [if_neg gone] at scheduled found
      exact tracks.holds a arming timer scheduled found

theorem listExpiredCb_tracks (tracks : Tracks s schedule) {now : UInt64} {probe : Nat}
    (fresh : s.object probe = none)
    (fits : ∀ addr arming, schedule addr = some arming → now.toNat < 2 ^ 32 ∧
      (arming.recurring = true → arming.deadline ≤ now.toNat →
        now.toNat + arming.delay < 2 ^ 32)) :
    ∃ cbs s', s.listExpiredCb now probe = .ok (cbs, s') ∧
      cbs = (s.expired now probe).map (fun a => (s.object a).bind Timer.cb) ∧
      Tracks s' fun addr =>
        if addr ∈ s.expired now probe then
          (schedule addr).bind fun arming =>
            if arming.recurring then some { arming with start := now.toNat } else none
        else schedule addr := by
  apply listExpiredCb_rearms tracks fresh
  intro addr gone arming scheduled recurring
  obtain ⟨small, sum⟩ := fits addr arming scheduled
  exact sum recurring (expired_due tracks fresh small scheduled gone)

/-- The set is sorted by deadline: its first timer has the earliest one. -/
theorem Tracks.earliest (tracks : Tracks s schedule) {first : Nat} {rest : List Nat}
    (head : s.timers = first :: rest) {arming : Arming} (scheduled : schedule first = some arming) :
    ∀ addr arming', schedule addr = some arming' → arming.deadline ≤ arming'.deadline := by
  intro addr arming' scheduled'
  obtain ⟨-, -, -, inside, -⟩ := tracks.live scheduled'
  have least := tracks.ordered.coherent.least head addr inside
  rw [UInt32.le_iff_toNat_le, tracks.nextOf scheduled, tracks.nextOf scheduled'] at least
  exact least

/-- The wait for a deadline, none if it has passed. -/
theorem toNat_remaining (next : UInt32) (now : UInt64) :
    (if now ≥ next.toUInt64 then 0 else next.toUInt64 - now).toNat = next.toNat - now.toNat := by
  have bound := next.toNat_lt
  split
  next past =>
    rw [ge_iff_le, UInt64.le_iff_toNat_le, UInt32.toNat_toUInt64] at past
    rw [Nat.sub_eq_zero_of_le past]
    rfl
  next ahead =>
    rw [ge_iff_le, UInt64.le_iff_toNat_le, UInt32.toNat_toUInt64] at ahead
    rw [UInt64.toNat_sub, UInt32.toNat_toUInt64]
    omega

theorem getNextTimer_tracks (tracks : Tracks s schedule) (now : UInt64) :
    ∃ ms s', s.getNextTimer now = .ok (ms, s') ∧ Tracks s' schedule ∧
      ((∀ addr, schedule addr = none) → ms.toNat = 2 ^ 64 - 1) ∧
      ∀ addr arming, schedule addr = some arming →
        (∀ other arming', schedule other = some arming' →
          arming.deadline ≤ arming'.deadline) →
        ms.toNat = arming.deadline - now.toNat := by
  have tracks' : Tracks { s with tickled := false } schedule :=
    ⟨tracks.ordered.front false s.fronts, tracks.armed, tracks.holds⟩
  cases head : s.timers with
  | nil =>
    refine ⟨-1, _, by simp only [getNextTimer, head, List.head?_nil], tracks', fun _ => rfl, ?_⟩
    intro addr arming scheduled
    obtain ⟨-, -, -, inside, -⟩ := tracks.live scheduled
    simp [head] at inside
  | cons first rest =>
    have at_front : first ∈ s.timers := by simp [head]
    obtain ⟨arming, scheduled⟩ := Option.isSome_iff_exists.mp ((tracks.armed first).mp at_front)
    obtain ⟨timer, found, -, -, holds⟩ := tracks.live scheduled
    have earliest := tracks.earliest head scheduled
    refine ⟨if now ≥ timer.next.toUInt64 then 0 else timer.next.toUInt64 - now, _, ?_, tracks',
      ?_, ?_⟩
    · simp only [getNextTimer, head, List.head?_cons, deref, found, bind, Except.bind]
      split <;> rfl
    · intro nothing
      rw [nothing first] at scheduled
      cases scheduled
    · intro addr arming' scheduled' least
      have same : arming'.deadline = arming.deadline :=
        Nat.le_antisymm (least first arming scheduled) (earliest addr arming' scheduled')
      rw [same, ← holds.next, toNat_remaining]

end Calls

/-! ### Runs -/

namespace Clocked

abbrev Tracked (c : Clocked φ ω) : Prop := Tracks c.manager c.schedule

/-- A request whose times fit returns, keeps the set and the schedule in step, and is punctual. -/
theorem step_spec {c : Clocked φ ω} (tracked : c.Tracked) (request : Request φ ω)
    (permitted : c.Permitted request) (fits : c.Fits request) :
    c.Punctual request ∧ ∃ c', c.step request = .ok c' ∧ c'.Tracked := by
  cases request with
  | getNextTimer now =>
    obtain ⟨ms, manager, ran, tracks, answer⟩ := getNextTimer_tracks tracked now
    exact ⟨⟨ms, manager, ran, answer⟩, ⟨manager, c.schedule⟩,
      by simp [step, ran, bind, Except.bind], tracks⟩
  | call call =>
    cases call with
    | addtimer now addr ms cb recurring =>
      exact ⟨trivial, _, rfl, addtimer_tracks tracked permitted fits rfl recurring⟩
    | addConditionTimer now addr ms cb weak_cond recurring =>
      exact ⟨trivial, _, rfl, addtimer_tracks tracked permitted fits rfl recurring⟩
    | cancel addr =>
      obtain ⟨timer, found⟩ := Option.isSome_iff_exists.mp permitted
      obtain ⟨cancelled, manager, ran, tracks⟩ := cancel_tracks tracked found
      exact ⟨trivial, ⟨manager, _⟩,
        by simp only [step, perform, ran, bind, Except.bind, Except.map]; rfl, tracks⟩
    | refresh now addr =>
      obtain ⟨timer, found⟩ := Option.isSome_iff_exists.mp permitted
      obtain ⟨refreshed, manager, ran, tracks⟩ := refresh_tracks tracked found fits
      exact ⟨trivial, ⟨manager, _⟩,
        by simp only [step, perform, ran, bind, Except.bind, Except.map]; rfl, tracks⟩
    | reset now addr ms from_now =>
      obtain ⟨timer, found⟩ := Option.isSome_iff_exists.mp permitted
      obtain ⟨changed, manager, ran, tracks⟩ := reset_tracks tracked found fits
      exact ⟨trivial, ⟨manager, _⟩,
        by simp only [step, perform, ran, bind, Except.bind, Except.map]; rfl, tracks⟩
    | listExpiredCb now probe =>
      obtain ⟨cbs, manager, ran, callbacks, tracks⟩ := listExpiredCb_tracks tracked permitted fits
      refine ⟨⟨cbs, manager, ran, callbacks, ?_, ?_⟩, ⟨manager, _⟩,
        by simp only [step, perform, ran, bind, Except.bind, Except.map]; rfl, tracks⟩
      · intro addr gone
        have inside := ((mem_expired tracked.ordered.coherent now permitted addr).mp gone).1
        obtain ⟨arming, scheduled⟩ := Option.isSome_iff_exists.mp ((tracked.armed addr).mp inside)
        exact ⟨arming, scheduled,
          expired_due tracked permitted (fits addr arming scheduled).1 scheduled gone⟩
      · intro addr arming scheduled due
        exact due_expired tracked permitted (fits addr arming scheduled).1 scheduled due
    | release addr => exact ⟨trivial, _, rfl, release_tracks tracked permitted⟩

/-- In every run in which the deadlines armed and the clock values of `listExpiredCb` stay below
`2^32`, no call fails, no timer is returned before its deadline, each is returned by the first
`listExpiredCb` after it, and `getNextTimer` returns the time to the earliest deadline. -/
theorem run_punctual (requests : List (Request φ ω))
    (legal : Legal step (fun c request => c.Permitted request ∧ c.Fits request) initial
      requests) :
    Legal step Punctual (initial : Clocked φ ω) requests ∧
      ∃ c, calls step (initial : Clocked φ ω) requests = .ok c := by
  constructor
  · refine legal_of_invariant Tracked (fun c request tracked ok => ?_)
      (fun c request c' tracked ok stepped => ?_) tracks_empty legal
    · exact (step_spec tracked request ok.1 ok.2).1
    · obtain ⟨-, after, stepped', tracked'⟩ := step_spec tracked request ok.1 ok.2
      rw [stepped] at stepped'
      cases stepped'
      exact tracked'
  · obtain ⟨c, ran, -⟩ := calls_safe Tracked (fun c request tracked ok =>
      (step_spec tracked request ok.1 ok.2).2) tracks_empty legal
    exact ⟨c, ran⟩

/-- A recurring timer armed at 10 for 5 milliseconds is asked for at 12 and fires at 16. -/
theorem run_punctual_recurring :
    Legal step (fun c request => c.Permitted request ∧ c.Fits request)
        (initial : Clocked Unit Unit)
        [.call (.addtimer 10 1 5 () true), .getNextTimer 12, .call (.listExpiredCb 16 2)] ∧
      Legal step Punctual (initial : Clocked Unit Unit)
        [.call (.addtimer 10 1 5 () true), .getNextTimer 12, .call (.listExpiredCb 16 2)] := by
  have legal : Legal step (fun c request => c.Permitted request ∧ c.Fits request)
      (initial : Clocked Unit Unit)
      [.call (.addtimer 10 1 5 () true), .getNextTimer 12, .call (.listExpiredCb 16 2)] := by
    have small : (10 : UInt64).toNat + (5 : UInt64).toNat < 2 ^ 32 := by decide
    refine ⟨⟨rfl, small⟩, fun c₁ h₁ => ?_⟩
    cases h₁
    refine ⟨⟨trivial, trivial⟩, fun c₂ h₂ => ?_⟩
    cases h₂
    refine ⟨⟨rfl, ?_⟩, fun _ _ => trivial⟩
    intro addr arming scheduled
    by_cases same : addr = 1
    · subst same
      cases scheduled
      exact ⟨by decide, fun _ _ => by decide⟩
    · simp [Schedule.after, initial, same] at scheduled
  exact ⟨legal, (run_punctual _ legal).1⟩

/-- A timer armed for one second at a Unix time in milliseconds: `getNextTimer` says it is due. A
deadline past `2^32` is returned at once, one before it is not returned at `2^32`. -/
theorem deadlines_past_32_bits :
    ¬Legal step Punctual (initial : Clocked Unit Unit)
        [.call (.addtimer 1700000000000 1 1000 () false), .getNextTimer 1700000000000] ∧
      ¬Legal step Punctual (initial : Clocked Unit Unit)
        [.call (.addtimer 4294966796 1 1000 () false), .call (.listExpiredCb 4294966796 2)] ∧
      ¬Legal step Punctual (initial : Clocked Unit Unit)
        [.call (.addtimer 4294967286 1 5 () false), .call (.listExpiredCb 4294967296 2)] := by
  refine ⟨?_, ?_, ?_⟩
  · rintro ⟨-, later⟩
    obtain ⟨⟨ms, manager, ran, -, answer⟩, -⟩ := later _ rfl
    have least := answer 1 ⟨1700000000000, 1000, false⟩ rfl fun other arming scheduled => by
      by_cases same : other = 1
      · subst same
        cases scheduled
        exact Nat.le_refl _
      · simp [Schedule.after, initial, same] at scheduled
    cases ran
    revert least
    decide
  · rintro ⟨-, later⟩
    obtain ⟨⟨cbs, manager, -, -, early, -⟩, -⟩ := later _ rfl
    obtain ⟨arming, scheduled, due⟩ := early 1 (by decide)
    cases scheduled
    revert due
    decide
  · rintro ⟨-, later⟩
    obtain ⟨⟨cbs, manager, -, -, -, late⟩, -⟩ := later _ rfl
    have missed := late 1 ⟨4294967286, 5, false⟩ rfl (by decide)
    revert missed
    decide

end Clocked

end Dwframe.TimerManager
