import Mathlib.Logic.Function.Basic
import Dwframe.Lib.Run

/-!
# The scheduler

Workers `ι` run `Scheduler::run`; each has a program counter. A step of the system is
one access to shared data: the dequeue section and a `schedule()` call are one step
each, since they hold `m_mutex`; a read or write of a fiber's state, an update of
`m_activeThreadCount` and a context switch are one step each. What a fiber does while
it runs is open: it may be switched out in any of the ways `Fiber` offers, and anyone
may call `schedule()` at any time.

Wake-ups and `m_idleThreadCount` are left out: a worker in `idle` may go round at any time,
tickled or not.

Every entry pushed to `m_fibers` is numbered, so that entries can be told apart; the
numbers, `finished` and `dequeued` are records that no step reads.
-/
namespace Dwframe

/-- What an entry of the scheduler's queue runs. -/
inductive Task (φ κ : Type) where
  | fiber (f : φ)
  | cb (c : κ)
  deriving DecidableEq, Repr

/-- `Fiber::State`. -/
inductive FiberState where
  | init
  | hold
  | exec
  | term
  | ready
  | except
  deriving DecidableEq, Repr

/-- `TERM` or `EXCEPT`. -/
def FiberState.isDead : FiberState → Bool
  | term => true
  | except => true
  | _ => false

/-- How a running fiber is switched out. -/
inductive Leave where
  | yieldToReady
  | yieldToHold
  | returns
  | throws
  deriving DecidableEq, Repr

/-- The state the fiber gives itself before `swapOut`; `YieldToHold` writes none. -/
def Leave.writes : Leave → Option FiberState
  | yieldToReady => some .ready
  | yieldToHold => none
  | returns => some .term
  | throws => some .except

/-- `FiberAndThread`: `thread` is `-1` for an entry that any thread may run. -/
structure Entry (κ : Type) where
  task : Task Nat κ
  thread : Int
  ticket : Nat
  deriving DecidableEq, Repr

/-- Whether the entry goes through `cb_fiber`. -/
def Entry.isCb {κ : Type} (e : Entry κ) : Bool :=
  match e.task with
  | .fiber _ => false
  | .cb _ => true

/-- The way of a worker with a fiber, from `swapIn` on. -/
inductive Stage where
  /-- Before the assertion in `swapIn`. -/
  | enter
  /-- Past it, before `m_state = EXEC`. -/
  | swap
  | running
  /-- The fiber has set its state and is in `swapOut`. -/
  | leaving
  /-- Back in `run`, before `--m_activeThreadCount`. -/
  | returned
  /-- Before the test for `READY`. -/
  | settle
  /-- Before `schedule()` of the `READY` fiber. -/
  | requeue
  /-- Before the test for `TERM` and `EXCEPT`. -/
  | retire
  /-- Before `m_state = HOLD`. -/
  | park
  deriving DecidableEq, Repr

inductive Assertion where
  /-- `m_state != EXEC` in `Fiber::swapIn`. -/
  | swapIn
  /-- `m_state` is `TERM`, `EXCEPT` or `INIT` in `Fiber::reset`. -/
  | reset
  deriving DecidableEq, Repr

inductive Pc (κ : Type) where
  | unstarted
  /-- Before the dequeue section. -/
  | top
  /-- With a dequeued entry, before the branches on it. -/
  | dispatch (e : Entry κ)
  | task (stage : Stage) (e : Entry κ) (f : Nat)
  /-- In the branch of a dead fiber, before `--m_activeThreadCount`. -/
  | discard (e : Entry κ)
  /-- The dequeue section found nothing; before the test of `idle_fiber`. -/
  | idleTest
  /-- In `idle`, before its call of `stopping()`. -/
  | idling
  | exited
  | aborted (assertion : Assertion) (e : Entry κ)
  deriving DecidableEq, Repr

structure Worker (κ : Type) where
  pc : Pc κ
  cbFiber : Option Nat := none
  /-- `idle_fiber` is in state `TERM`. -/
  idleTerm : Bool := false
  deriving DecidableEq, Repr

structure Scheduler (ι κ : Type) where
  fibers : List (Entry κ)
  /-- `m_activeThreadCount`; an `Int`, so that a decrement below zero would show. -/
  activeThreadCount : Int
  stoping : Bool
  autoStop : Bool
  /-- What a subclass adds to `stopping()`; always true for `Scheduler` itself. -/
  ioQuiet : Bool
  state : Nat → FiberState
  /-- How many `Fiber` objects there are; they are numbered from zero. -/
  fiberCount : Nat
  workers : ι → Worker κ
  tickets : Nat
  finished : List Nat
  dequeued : List (ι × Entry κ)

/-- What a worker's step does: its own state afterwards and the accesses to shared
data. -/
structure Move (κ : Type) where
  worker : Worker κ
  write : Option (Nat × FiberState) := none
  /-- A `Fiber` was allocated. -/
  alloc : Bool := false
  /-- The change of `m_activeThreadCount`. -/
  count : Int := 0
  /-- The fiber passed to `schedule()`. -/
  push : Option Nat := none
  /-- The entry the worker is done with. -/
  finish : Option Nat := none

inductive Action (ι κ : Type) where
  /-- Somebody creates a `Fiber`. -/
  | create
  /-- `schedule(fc, thread)`; `none` is a null pointer or an empty function. -/
  | schedule (task : Option (Task Nat κ)) (thread : Int)
  /-- `schedule(begin, end)`. -/
  | scheduleRange (tasks : List (Option (Task Nat κ)))
  /-- Somebody writes `m_autoStop` and `m_stoping`. -/
  | setFlags (autoStop stoping : Bool)
  | setIoQuiet (quiet : Bool)
  /-- The thread of a worker enters `run`. -/
  | begin (w : ι)
  /-- The dequeue section. -/
  | dequeue (w : ι)
  | leave (w : ι) (how : Leave)
  /-- The next step of a worker at any other point. -/
  | advance (w : ι)
  deriving DecidableEq, Repr

namespace Scheduler

variable {ι κ : Type}

/-- `stopping()` of the base class. -/
def stopping (s : Scheduler ι κ) : Bool :=
  s.autoStop && s.stoping && s.fibers.isEmpty && s.activeThreadCount == 0

/-- `stopping()` as `idle` and `stop` call it. -/
def virtualStopping (s : Scheduler ι κ) : Bool := s.ioQuiet && s.stopping

/-- `scheduleNolock`: an empty entry is not pushed. -/
def scheduleNolock (s : Scheduler ι κ) (task : Option (Task Nat κ)) (thread : Int) :
    Scheduler ι κ :=
  match task with
  | none => s
  | some task =>
    { s with
      fibers := s.fibers ++ [{ task := task, thread := thread, ticket := s.tickets }]
      tickets := s.tickets + 1 }

/-- Whether the loop of the dequeue section stops at an entry: it skips entries pinned
to another thread and fibers that are executing. -/
def eligible (s : Scheduler ι κ) (tid : Int) (e : Entry κ) : Bool :=
  (e.thread == -1 || e.thread == tid) &&
    match e.task with
    | .fiber f => s.state f != .exec
    | .cb _ => true

/-- The step of a worker outside the dequeue section and the fibers it runs. -/
def move (s : Scheduler ι κ) (w : Worker κ) : Option (Move κ) :=
  match w.pc with
  | .dispatch e =>
    match e.task with
    | .fiber f =>
      if (s.state f).isDead then some { worker := { w with pc := .discard e } }
      else some { worker := { w with pc := .task .enter e f } }
    | .cb _ =>
      match w.cbFiber with
      | some f =>
        -- `cb_fiber->reset(ft.cb)`
        if (s.state f).isDead || s.state f == .init then
          some { worker := { w with pc := .task .enter e f }, write := some (f, .init) }
        else some { worker := { w with pc := .aborted .reset e } }
      | none =>
        some {
          worker := { w with pc := .task .enter e s.fiberCount, cbFiber := some s.fiberCount }
          write := some (s.fiberCount, .init)
          alloc := true }
  | .task .enter e f =>
    if s.state f = .exec then some { worker := { w with pc := .aborted .swapIn e } }
    else some { worker := { w with pc := .task .swap e f } }
  | .task .swap e f =>
    some { worker := { w with pc := .task .running e f }, write := some (f, .exec) }
  | .task .leaving e f => some { worker := { w with pc := .task .returned e f } }
  | .task .returned e f => some { worker := { w with pc := .task .settle e f }, count := -1 }
  | .task .settle e f =>
    -- `m_state` is read now, not when the fiber left
    if s.state f = .ready then some { worker := { w with pc := .task .requeue e f } }
    else some { worker := { w with pc := .task .retire e f } }
  | .task .requeue e f =>
    some {
      worker := { w with pc := .top, cbFiber := if e.isCb then none else w.cbFiber }
      push := some f
      finish := some e.ticket }
  | .task .retire e f =>
    if (s.state f).isDead then
      -- `cb_fiber->reset(nullptr)` keeps the fiber for the next callback
      some {
        worker := { w with pc := .top }
        write := if e.isCb then some (f, .init) else none
        finish := some e.ticket }
    else some { worker := { w with pc := .task .park e f } }
  | .task .park e f =>
    some {
      worker := { w with pc := .top, cbFiber := if e.isCb then none else w.cbFiber }
      write := some (f, .hold)
      finish := some e.ticket }
  | .discard e => some { worker := { w with pc := .top }, count := -1, finish := some e.ticket }
  | .idleTest =>
    if w.idleTerm then some { worker := { w with pc := .exited } }
    else some { worker := { w with pc := .idling } }
  -- `idle` leaves its loop, and `idle_fiber` ends, when `stopping()` holds
  | .idling => some { worker := { w with pc := .top, idleTerm := s.virtualStopping } }
  | _ => none

variable [DecidableEq ι]

def setWorker (s : Scheduler ι κ) (w : ι) (worker : Worker κ) : Scheduler ι κ :=
  { s with workers := Function.update s.workers w worker }

def writeState (s : Scheduler ι κ) (write : Option (Nat × FiberState)) : Scheduler ι κ :=
  match write with
  | none => s
  | some (f, value) => { s with state := Function.update s.state f value }

def perform (s : Scheduler ι κ) (w : ι) (move : Move κ) : Scheduler ι κ :=
  -- every move has at most one of these accesses; `schedule()` is the lock-protected one
  let s := (s.setWorker w move.worker).writeState move.write
  { s with
    fiberCount := if move.alloc then s.fiberCount + 1 else s.fiberCount
    activeThreadCount := s.activeThreadCount + move.count
    finished := s.finished ++ move.finish.toList }.scheduleNolock (move.push.map Task.fiber) (-1)

/-- The lock-protected section at the head of the loop. -/
def dequeue (s : Scheduler ι κ) (tid : Int) (w : ι) : Scheduler ι κ :=
  match s.fibers.find? (s.eligible tid) with
  | none => s.setWorker w { s.workers w with pc := .idleTest }
  | some e =>
    { s.setWorker w { s.workers w with pc := .dispatch e } with
      fibers := s.fibers.eraseP (s.eligible tid)
      activeThreadCount := s.activeThreadCount + 1
      dequeued := s.dequeued ++ [(w, e)] }

/-- Every fiber named in a call exists. -/
def known (s : Scheduler ι κ) : Option (Task Nat κ) → Bool
  | some (.fiber f) => decide (f < s.fiberCount)
  | _ => true

variable (tid : ι → Int)

def step (s : Scheduler ι κ) : Action ι κ → Option (Scheduler ι κ)
  | .create =>
    some { s.writeState (some (s.fiberCount, .init)) with fiberCount := s.fiberCount + 1 }
  | .schedule task thread => if s.known task then some (s.scheduleNolock task thread) else none
  | .scheduleRange tasks =>
    if tasks.all s.known then some (tasks.foldl (fun s task => s.scheduleNolock task (-1)) s)
    else none
  | .setFlags autoStop stoping => some { s with autoStop := autoStop, stoping := stoping }
  | .setIoQuiet quiet => some { s with ioQuiet := quiet }
  | .begin w =>
    match (s.workers w).pc with
    | .unstarted => some (s.setWorker w { s.workers w with pc := .top })
    | _ => none
  | .dequeue w =>
    match (s.workers w).pc with
    | .top => some (s.dequeue (tid w) w)
    | _ => none
  | .leave w how =>
    match (s.workers w).pc with
    | .task .running e f =>
      some (s.perform w {
        worker := { s.workers w with pc := .task .leaving e f }
        write := how.writes.map fun value => (f, value) })
    | _ => none
  | .advance w => (s.move (s.workers w)).map (s.perform w)

/-- Before any worker has entered `run`. -/
def initial : Scheduler ι κ where
  fibers := []
  activeThreadCount := 0
  stoping := true
  autoStop := false
  ioQuiet := true
  state _ := .init
  fiberCount := 0
  workers _ := { pc := .unstarted }
  tickets := 0
  finished := []
  dequeued := []

/-- A state some interleaving reaches. -/
def Reachable (s : Scheduler ι κ) : Prop :=
  ∃ actions, Lib.Run.exec (step tid) initial actions = some s

end Scheduler

end Dwframe
