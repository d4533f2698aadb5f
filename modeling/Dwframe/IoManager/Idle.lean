import Dwframe.IoManager.Model
import Dwframe.Timer.Invariant

/-!
# The loop of `IOManager::idle`

A turn of the loop asks `stopping` whether to leave, waits in `epoll_wait`, again after each
interrupt, and then hands out what has expired and what was reported. How long to wait is for the
earliest timer to say, at most `MAX_TIMEOUT`. `stopping(uint64_t timerout)` has its parameter by
value, so the time it reads from `getNextTimer` stays inside it and the loop waits for the time
that it started with, none at all.
-/
namespace Dwframe

open Lib Lib.Run

variable {σ φ κ ω : Type}

inductive IdleFault where
  | timer (fault : TimerFault)
  | table (fault : IoFault)
  deriving DecidableEq, Repr

/-- An entry of `events`: the tickle pipe, or a descriptor with the outcome of its `epoll_ctl`. -/
inductive Report where
  | tickle
  | descriptor (fd : Nat) (events : BitVec 32) (ctl : Bool)

/-- What a turn of the loop meets: `Scheduler::stopping()`, the clock in `getNextTimer`, how often
`epoll_wait` fails with `EINTR`, its reports, and the clock and the heap in `listExpiredCb`. -/
structure Turn where
  schedulerStopping : Bool
  now : UInt64
  interrupts : Nat
  reports : List Report
  expiry : UInt64
  probe : Nat

/-- The parts of the manager the loop works on; `queued` has gone to `schedule(begin, end)`. -/
structure Idle (σ φ κ ω : Type) where
  table : IOManager σ φ κ
  timers : TimerManager (Callback κ ω)
  queued : List (Option (Callback κ ω))

namespace Idle

def MAX_TIMEOUT : Int32 := 1000

/-- `(int)v`. -/
def toInt (v : UInt64) : Int32 := v.toUInt32.toInt32

/-- `stopping(uint64_t timerout)`. -/
def stopping (s : Idle σ φ κ ω) (schedulerStopping : Bool) (now _timerout : UInt64) :
    Except TimerFault (Bool × Idle σ φ κ ω) := do
  -- the assignment is to the copy that the caller never sees
  let (timerout, timers) ← s.timers.getNextTimer now
  .ok (schedulerStopping && s.table.pendingEventCount == 0 && timerout == ~~~0,
    { s with timers := timers })

/-- What `next_timeout` becomes in front of `epoll_wait`. -/
def bounded (next_timeout : UInt64) : UInt64 :=
  if next_timeout ≠ ~~~0 then
    if toInt next_timeout > MAX_TIMEOUT then MAX_TIMEOUT.toInt64.toUInt64 else next_timeout
  else MAX_TIMEOUT.toInt64.toUInt64

/-- The timeouts `epoll_wait` is called with when it is interrupted that often. -/
def waits : Nat → UInt64 → List Int32
  | 0, next_timeout => [toInt (bounded next_timeout)]
  | interrupts + 1, next_timeout =>
    toInt (bounded next_timeout) :: waits interrupts (bounded next_timeout)

/-- The turn up to the return of `epoll_wait`: its timeouts, none if the loop is left. -/
def poll (s : Idle σ φ κ ω) (t : Turn) : Except TimerFault (List Int32 × Idle σ φ κ ω) := do
  let next_timeout := 0
  let (stop, s) ← s.stopping t.schedulerStopping t.now next_timeout
  if stop then .ok ([], s) else .ok (waits t.interrupts next_timeout, s)

def report (m : IOManager σ φ κ) : Report → Except IoFault (IOManager σ φ κ)
  | .tickle => .ok m
  | .descriptor fd events ctl => m.dispatch fd events ctl

/-- A whole turn. -/
def turn (s : Idle σ φ κ ω) (t : Turn) : Except IdleFault (Idle σ φ κ ω) := do
  let (timeouts, s) ← (s.poll t).mapError .timer
  if timeouts.isEmpty then .ok s
  else
    let (cbs, timers) ← (s.timers.listExpiredCb t.expiry t.probe).mapError .timer
    let table ← (t.reports.foldlM report s.table).mapError .table
    .ok ⟨table, timers, s.queued ++ cbs⟩

/-! ### The timeouts of a turn -/

/-- A timer of the set is due at `now`, which is wider than `m_next`. -/
def SomeDue (s : TimerManager κ) (now : UInt64) : Prop :=
  ∃ addr ∈ s.timers, (s.nextOf addr).toUInt64 ≤ now

/-- A timeout as the earliest timer asks for it: its delay up to `MAX_TIMEOUT`, which is also for
an empty set, and no wait only for a timer that is due. -/
structure Timely (s : TimerManager κ) (now : UInt64) (timeout : Int32) : Prop where
  delay : ∀ ms s', s.getNextTimer now = .ok (ms, s') →
    timeout.toInt = if s.timers = [] then 1000 else min 1000 (ms.toNat : Int)
  lower : 0 ≤ timeout.toInt
  upper : timeout.toInt ≤ 1000
  due : timeout.toInt = 0 → SomeDue s now

/-- The loop is left: nothing is pending. -/
def Leaves (s : Idle σ φ κ ω) (t : Turn) : Prop :=
  t.schedulerStopping = true ∧ s.table.pendingEventCount = 0 ∧ s.timers.timers = []

theorem mem_waits {interrupts : Nat} {timeout : Int32} :
    timeout ∈ waits interrupts 0 ↔ timeout = 0 := by
  have still : bounded 0 = 0 := rfl
  induction interrupts with
  | zero =>
    rw [waits, still, List.mem_singleton]
    rfl
  | succ n ih =>
    rw [waits, still, List.mem_cons]
    exact (or_congr Iff.rfl ih).trans (or_self_iff)

/-- The first timer of a coherent set is due if any is. -/
theorem getNextTimer_coherent {s : TimerManager κ} (coherent : TimerManager.Coherent s)
    (now : UInt64) :
    ∃ ms, s.getNextTimer now = .ok (ms, { s with tickled := false }) ∧
      (ms = ~~~0 ↔ s.timers = []) ∧ (ms = 0 ↔ SomeDue s now) := by
  cases head : s.timers with
  | nil =>
    refine ⟨-1, by simp only [TimerManager.getNextTimer, head, List.head?_nil], by decide, ?_⟩
    simp [SomeDue, head]
  | cons first rest =>
    have inside : first ∈ s.timers := by simp [head]
    obtain ⟨timer, found⟩ := coherent.live first inside
    have next : s.nextOf first = timer.next := by rw [TimerManager.nextOf, found]
    have bound := timer.next.toNat_lt
    have least := coherent.least head
    rw [next] at least
    have due : SomeDue s now ↔ now ≥ timer.next.toUInt64 := by
      constructor
      · rintro ⟨addr, member, past⟩
        have first_past := least addr member
        rw [UInt64.le_iff_toNat_le, UInt32.toNat_toUInt64] at past
        rw [UInt32.le_iff_toNat_le] at first_past
        rw [ge_iff_le, UInt64.le_iff_toNat_le, UInt32.toNat_toUInt64]
        exact Nat.le_trans first_past past
      · intro past
        exact ⟨first, inside, next ▸ past⟩
    refine ⟨if now ≥ timer.next.toUInt64 then 0 else timer.next.toUInt64 - now, ?_, ?_, ?_⟩
    · simp only [TimerManager.getNextTimer, head, List.head?_cons, TimerManager.deref, found, bind,
        Except.bind]
      split <;> rfl
    · simp only [reduceCtorEq, iff_false]
      split
      next => decide
      next ahead =>
        rw [ge_iff_le, UInt64.le_iff_toNat_le, UInt32.toNat_toUInt64] at ahead
        rw [← UInt64.toNat_inj, UInt64.toNat_sub, UInt32.toNat_toUInt64]
        -- `m_next` has 32 bits, so no wait reaches the mark of an empty set
        have all : (~~~0 : UInt64).toNat = 2 ^ 64 - 1 := rfl
        omega
    · rw [due]
      split
      next past => exact iff_of_true rfl past
      next ahead =>
        refine iff_of_false (fun zero => ?_) ahead
        rw [ge_iff_le, UInt64.le_iff_toNat_le, UInt32.toNat_toUInt64] at ahead
        rw [← UInt64.toNat_inj, UInt64.toNat_sub, UInt32.toNat_toUInt64] at zero
        have none_left : (0 : UInt64).toNat = 0 := rfl
        omega

/-- A turn that does not leave the loop polls without waiting. -/
theorem poll_spec {s : Idle σ φ κ ω} (coherent : TimerManager.Coherent s.timers) (t : Turn) :
    ∃ timeouts, s.poll t =
        .ok (timeouts, { s with timers := { s.timers with tickled := false } }) ∧
      ((s.Leaves t ∧ timeouts = []) ∨ ¬s.Leaves t ∧ timeouts = waits t.interrupts 0) := by
  obtain ⟨ms, ran, all, -⟩ := getNextTimer_coherent coherent t.now
  by_cases leaves : s.Leaves t
  · refine ⟨[], ?_, .inl ⟨leaves, rfl⟩⟩
    simp [poll, stopping, ran, bind, Except.bind, leaves.1, leaves.2.1, all.mpr leaves.2.2]
  · refine ⟨_, ?_, .inr ⟨leaves, rfl⟩⟩
    -- `~0ull` is the wait of an empty set and of no other
    have stays : (t.schedulerStopping && s.table.pendingEventCount == 0 && ms == ~~~0) = false := by
      rw [Bool.eq_false_iff]
      intro stops
      simp only [Bool.and_eq_true, beq_iff_eq] at stops
      exact leaves ⟨stops.1.1, stops.1.2, all.mp stops.2⟩
    simp only [poll, stopping, ran, bind, Except.bind, stays, Bool.false_eq_true, if_false]

/-- The timeouts of a turn are those of the earliest timer exactly when the loop is left or that
timer is due: every timeout is 0. -/
theorem poll_timely_iff {s : Idle σ φ κ ω} (coherent : TimerManager.Coherent s.timers)
    (t : Turn) :
    ∃ timeouts s', s.poll t = .ok (timeouts, s') ∧
      ((∀ timeout ∈ timeouts, Timely s.timers t.now timeout) ↔
        s.Leaves t ∨ SomeDue s.timers t.now) := by
  obtain ⟨timeouts, ran, outcome⟩ := poll_spec coherent t
  refine ⟨timeouts, _, ran, ?_⟩
  rcases outcome with ⟨leaves, rfl⟩ | ⟨stays, rfl⟩
  · simp [leaves]
  · obtain ⟨ms, next, -, zero⟩ := getNextTimer_coherent coherent t.now
    rw [or_iff_right stays]
    constructor
    · intro timely
      exact (timely 0 (mem_waits.mpr rfl)).due rfl
    · intro due timeout member
      rw [mem_waits.mp member]
      refine ⟨?_, by decide, by decide, fun _ => due⟩
      intro ms' s' ran'
      -- a due timer makes the wait 0, which is what is passed
      have inside : s.timers.timers ≠ [] := List.ne_nil_of_mem due.choose_spec.1
      rw [next] at ran'
      cases ran'
      rw [if_neg inside, zero.mpr due]
      rfl

/-- A due timer at the clock, the third call of `epoll_wait` not interrupted. -/
theorem poll_timely_due :
    ∃ timeouts s', (⟨.create, TimerManager.empty.addtimer 5 2 5 (some (.user ())) false, []⟩ :
        Idle Unit Unit Unit Unit).poll ⟨false, 12, 2, [], 12, 1⟩ = .ok (timeouts, s') ∧
      ∀ timeout ∈ timeouts,
        Timely (TimerManager.empty.addtimer 5 2 5 (some (.user ())) false :
          TimerManager (Callback Unit Unit)) 12 timeout := by
  have coherent : TimerManager.Coherent
      (TimerManager.empty.addtimer 5 2 5 (some (.user ())) false :
        TimerManager (Callback Unit Unit)) :=
    (TimerManager.addtimer_ordered TimerManager.empty_ordered 5 rfl 5 rfl false).coherent
  obtain ⟨timeouts, s', ran, timely⟩ := poll_timely_iff
    (s := (⟨.create, _, []⟩ : Idle Unit Unit Unit Unit)) coherent ⟨false, 12, 2, [], 12, 1⟩
  exact ⟨timeouts, s', ran, timely.mpr (.inr ⟨2, List.mem_cons_self, by decide⟩)⟩

/-- The only timer is five milliseconds ahead, and `epoll_wait` is told not to wait. -/
theorem poll_spins :
    (⟨.create, TimerManager.empty.addtimer 5 2 5 (some (.user ())) false, []⟩ :
        Idle Unit Unit Unit Unit).poll ⟨false, 5, 0, [], 5, 1⟩ =
      .ok ([0], ⟨.create, { TimerManager.empty.addtimer 5 2 5 (some (.user ())) false with
        tickled := false }, []⟩) ∧
      ¬Timely (TimerManager.empty.addtimer 5 2 5 (some (.user ())) false :
        TimerManager (Callback Unit Unit)) 5 0 := by
  refine ⟨rfl, fun timely => ?_⟩
  have wait := timely.delay 5 _ rfl
  revert wait
  decide

/-! ### Runs -/

/-- A turn of the loop, a call on the timers, or a change of the table by another thread. -/
inductive Step (σ φ κ ω : Type) where
  | turn (t : Turn)
  | timers (call : TimerManager.Call κ ω)
  | table (m : IOManager σ φ κ)

def step (s : Idle σ φ κ ω) : Step σ φ κ ω → Except IdleFault (Idle σ φ κ ω)
  | .turn t => s.turn t
  | .timers call => do
    let timers ← (TimerManager.perform s.timers call).mapError .timer
    .ok { s with timers := timers }
  | .table m => .ok { s with table := m }

def Permitted (s : Idle σ φ κ ω) : Step σ φ κ ω → Prop
  | .timers call => TimerManager.Permitted s.timers call
  | _ => True

/-- The turn passes nothing but 0 to `epoll_wait`. -/
def Spins (s : Idle σ φ κ ω) : Step σ φ κ ω → Prop
  | .turn t => ∃ timeouts s', s.poll t = .ok (timeouts, s') ∧ ∀ timeout ∈ timeouts, timeout = 0
  | _ => True

theorem step_ordered {s s' : Idle σ φ κ ω} (ordered : TimerManager.Ordered s.timers)
    (a : Step σ φ κ ω) (permitted : s.Permitted a) (stepped : s.step a = .ok s') :
    TimerManager.Ordered s'.timers := by
  cases a with
  | table m =>
    cases stepped
    exact ordered
  | timers call =>
    obtain ⟨timers, ran, kept⟩ := TimerManager.perform_ordered ordered call permitted
    simp only [step, ran, Except.mapError, bind, Except.bind] at stepped
    cases stepped
    exact kept
  | turn t =>
    obtain ⟨timeouts, polled, -⟩ := poll_spec ordered.coherent t
    -- `getNextTimer` changes the flag only, and `listExpiredCb` keeps the order
    have front : TimerManager.Ordered { s.timers with tickled := false } :=
      ordered.front false s.timers.fronts
    obtain ⟨cbs, timers, kept, ran, final, -⟩ :=
      TimerManager.listExpiredCb_spec front t.expiry t.probe
    simp only [step, turn, polled, ran, Except.mapError, bind, Except.bind] at stepped
    split at stepped
    next =>
      cases stepped
      exact front
    next =>
      split at stepped
      next => cases stepped
      next =>
        cases stepped
        exact final

/-- In no run does the loop ever wait, whatever the timers and the clock. -/
theorem run_spins (steps : List (Step σ φ κ ω))
    (legal : Legal step Permitted ⟨.create, .empty, []⟩ steps) :
    Legal step Spins (⟨.create, .empty, []⟩ : Idle σ φ κ ω) steps := by
  refine legal_of_invariant (fun s => TimerManager.Ordered s.timers) (fun s a ordered _ => ?_)
    (fun s a s' ordered permitted stepped => step_ordered ordered a permitted stepped)
    TimerManager.empty_ordered legal
  cases a with
  | turn t =>
    obtain ⟨timeouts, polled, outcome⟩ := poll_spec ordered.coherent t
    refine ⟨timeouts, _, polled, ?_⟩
    rcases outcome with ⟨-, rfl⟩ | ⟨-, rfl⟩
    · simp
    · exact fun timeout member => mem_waits.mp member
  | timers call => trivial
  | table m => trivial

end Idle

end Dwframe
