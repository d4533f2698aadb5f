import Dwframe.IoManager.Calls
import Dwframe.Lib.Run

/-!
# The hooked I/O calls

A fiber in `do_io` or `connect_with_timeout` adds a condition timer, registers its event
with `addEvent`, and yields; workers run expired timer callbacks and dispatch epoll
events at any point in between. `scheduled` of the event table is the scheduler's queue:
resuming a fiber takes its entry out. An assertion that fails ends the process, so it is
a step that is not possible.

A `timer_info` belongs to one call and is shared by its retries; `winfo.lock()` succeeds
as long as the call has not returned.
-/
namespace Dwframe

/-- One call of `do_io` (`retry`) or of `connect_with_timeout`. -/
structure IoCall where
  fd : Nat
  event : Event
  /-- The timeout is not `(uint64_t)-1`. -/
  finite : Bool
  retry : Bool
  /-- The `timer_info` of the call. -/
  info : Nat
  deriving DecidableEq, Repr

inductive WaitStage where
  /-- Before the system call. -/
  | trying
  /-- It would block; before `addConditionTimer`. -/
  | wantTimer
  | wantEvent
  /-- `addEvent` returned an error; before `timer->cancel()`. -/
  | failed
  | wantYield
  /-- Switched out by `YieldToHold`. -/
  | parked
  /-- Running again; before `timer->cancel()`. -/
  | woken
  /-- Before the test of `cacelled`. -/
  | check
  deriving DecidableEq, Repr

structure Wait where
  call : IoCall
  stage : WaitStage
  /-- The local variable `timer`. -/
  timer : Option Nat
  deriving DecidableEq, Repr

inductive TimerStatus where
  /-- In `m_timers`. -/
  | armed
  /-- Taken out by `listExpiredCb`, its callback not run yet. -/
  | due
  | ran
  | cancelled
  deriving DecidableEq, Repr

/-- A condition timer with what its callback captures. -/
structure TimeoutTimer (φ : Type) where
  owner : φ
  call : IoCall
  status : TimerStatus
  deriving DecidableEq, Repr

structure Hooked (φ : Type) where
  manager : IOManager Unit φ Unit
  /-- The call each fiber is in. -/
  waits : φ → Option Wait
  /-- `cacelled` of each `timer_info` is set. -/
  cacelled : Nat → Bool
  infos : Nat
  timers : Nat → Option (TimeoutTimer φ)
  timerCount : Nat

inductive HookAction (φ : Type) where
  | doIo (f : φ) (fd : Nat) (event : Event) (finite : Bool)
  | connect (f : φ) (fd : Nat) (finite : Bool)
  /-- The next step of a fiber in a call; `answer` says whether a system call would
  block, or whether an `epoll_ctl` succeeds. -/
  | advance (f : φ) (answer : Bool)
  /-- `listExpiredCb` finds the timer expired. -/
  | expire (t : Nat)
  /-- A worker runs the callback of an expired timer. -/
  | callback (t : Nat) (ctl : Bool)
  | dispatch (fd : Nat) (mask : BitVec 32) (ctl : Bool)
  deriving DecidableEq, Repr

namespace Hooked

variable {φ : Type}

def initial : Hooked φ where
  manager := .create
  waits _ := none
  cacelled _ := false
  infos := 0
  timers _ := none
  timerCount := 0

/-- `winfo.lock()` succeeds. -/
def alive (s : Hooked φ) (timer : TimeoutTimer φ) : Bool :=
  match s.waits timer.owner with
  | some wait => wait.call.info == timer.call.info
  | none => false

variable [DecidableEq φ]

def setWait (s : Hooked φ) (f : φ) (wait : Option Wait) : Hooked φ :=
  { s with waits := Function.update s.waits f wait }

def setStatus (s : Hooked φ) (t : Nat) (timer : TimeoutTimer φ) (status : TimerStatus) :
    Hooked φ :=
  { s with timers := Function.update s.timers t (some { timer with status := status }) }

/-- Enter a call: `tinfo(new timer_info)`. -/
def enter (s : Hooked φ) (f : φ) (call : IoCall) : Option (Hooked φ) :=
  match s.waits f with
  | some _ => none
  | none =>
    some { s.setWait f (some ⟨call, .trying, none⟩) with
      cacelled := Function.update s.cacelled call.info false
      infos := s.infos + 1 }

/-- `if(timer) timer->cancel();`: a timer whose callback is already taken is left. -/
def cancelTimer (s : Hooked φ) : Option Nat → Hooked φ
  | none => s
  | some t =>
    match s.timers t with
    | some timer => if timer.status = .armed then s.setStatus t timer .cancelled else s
    | none => s

/-- The next step of fiber `f`, which is in a call. -/
def advance (s : Hooked φ) (f : φ) (wait : Wait) (answer : Bool) : Option (Hooked φ) :=
  match wait.stage with
  | .trying => some (s.setWait f (if answer then some { wait with stage := .wantTimer } else none))
  | .wantTimer =>
    -- the callback captures the call, not the fiber: it may outlive the wait
    if wait.call.finite then
      some { s.setWait f (some { wait with stage := .wantEvent, timer := some s.timerCount }) with
        timers := Function.update s.timers s.timerCount (some ⟨f, wait.call, .armed⟩)
        timerCount := s.timerCount + 1 }
    else some (s.setWait f (some { wait with stage := .wantEvent, timer := none }))
  | .wantEvent =>
    match s.manager.addEvent ⟨some (), f, true⟩ wait.call.fd wait.call.event none answer with
    | .ok (rt, m) =>
      some { s.setWait f (some { wait with stage := if rt = 0 then .wantYield else .failed }) with
        manager := m }
    | .error _ => none
  | .failed => some ((s.cancelTimer wait.timer).setWait f none)
  | .wantYield => some (s.setWait f (some { wait with stage := .parked }))
  | .parked =>
    -- a worker dequeues the fiber
    if ((), Task.fiber f) ∈ s.manager.scheduled then
      some { s.setWait f (some { wait with stage := .woken }) with
        manager := { s.manager with
          scheduled := s.manager.scheduled.erase ((), Task.fiber f) } }
    else none
  | .woken => some ((s.cancelTimer wait.timer).setWait f (some { wait with stage := .check }))
  | .check =>
    some (s.setWait f
      -- `do_io` tries again unless it timed out; `connect_with_timeout` is done
      (if s.cacelled wait.call.info || !wait.call.retry then none
      else some { wait with stage := .trying, timer := none }))

/-- The callback of a condition timer. -/
def callback (s : Hooked φ) (t : Nat) (timer : TimeoutTimer φ) (ctl : Bool) :
    Option (Hooked φ) :=
  -- `t->cacelled = ETIMEDOUT` and `cancelEvent`, whether or not the event is registered
  if s.alive timer && !s.cacelled timer.call.info then
    match s.manager.cancelEvent timer.call.fd timer.call.event ctl with
    | .ok (_, m) =>
      some { s.setStatus t timer .ran with
        manager := m
        cacelled := Function.update s.cacelled timer.call.info true }
    | .error _ => none
  else some (s.setStatus t timer .ran)

def step (s : Hooked φ) : HookAction φ → Option (Hooked φ)
  | .doIo f fd event finite => s.enter f ⟨fd, event, finite, true, s.infos⟩
  | .connect f fd finite => s.enter f ⟨fd, .write, finite, false, s.infos⟩
  | .advance f answer => (s.waits f).bind fun wait => s.advance f wait answer
  | .expire t =>
    (s.timers t).bind fun timer =>
      if timer.status = .armed then some (s.setStatus t timer .due) else none
  | .callback t ctl =>
    (s.timers t).bind fun timer =>
      if timer.status = .due then s.callback t timer ctl else none
  | .dispatch fd mask ctl =>
    match s.manager.dispatch fd mask ctl with
    | .ok m => some { s with manager := m }
    | .error _ => none

/-! ### What must hold of a parked fiber -/

/-- The fiber is in the scheduler's queue. -/
def Queued (s : Hooked φ) (f : φ) : Prop := ((), Task.fiber f) ∈ s.manager.scheduled

/-- The fiber's event is registered with the fiber as its waiter. -/
def Registered (s : Hooked φ) (f : φ) (call : IoCall) : Prop :=
  s.manager.registered call.fd call.event = some ((), .fiber f)

/-- The callback of a timer of this wait has not run. -/
def Pending (s : Hooked φ) (timer : Option Nat) : Prop :=
  ∀ t ∈ timer, ∃ record, s.timers t = some record ∧ record.status ≠ .ran

/-- A parked fiber is queued, or its event is registered and its timeout callback has not
run yet. -/
def Woken (s : Hooked φ) : Prop :=
  ∀ f wait, s.waits f = some wait → wait.stage = .parked →
    s.Queued f ∨ (s.Registered f wait.call ∧ s.Pending wait.timer)

/-- No event is registered for a call whose timeout has already been taken, and the
`epoll_ctl` of a timeout callback succeeds. -/
def InTime (s : Hooked φ) : HookAction φ → Prop
  | .advance f _ =>
    ∀ wait ∈ s.waits f, wait.stage = .wantEvent → s.cacelled wait.call.info = false
  | .callback _ ctl => ctl = true
  | _ => True

instance (s : Hooked φ) : (a : HookAction φ) → Decidable (s.InTime a)
  | .advance f _ => inferInstanceAs (Decidable (∀ wait ∈ s.waits f, _ → _))
  | .callback _ ctl => inferInstanceAs (Decidable (ctl = true))
  | .doIo .. => .isTrue trivial
  | .connect .. => .isTrue trivial
  | .expire .. => .isTrue trivial
  | .dispatch .. => .isTrue trivial

end Hooked

end Dwframe
