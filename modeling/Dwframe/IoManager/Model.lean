import Dwframe.Scheduler.Model

/-!
# The event table of `IOManager`

One `FdContext` per descriptor holds the registered event bits and, for each event,
the waiter to schedule. Every call runs under the table lock and the descriptor's
mutex, so it is one step. `epoll_ctl` is the kernel's: a call takes its outcome
`ctl` as an argument. `scheduled` records what has been handed to `schedule()`.

The types of schedulers, fibers and callbacks are left open.
-/
namespace Dwframe

inductive IoFault where
  /-- A `dwframe_ASSERT` fails. -/
  | assertion
  /-- A vector is indexed outside its bounds. -/
  | outOfBounds
  /-- A member of a null `Scheduler*` is called. -/
  | nullScheduler
  deriving DecidableEq, Repr

/-- `IOManager::Event`, without the empty set. -/
inductive Event where
  | read
  | write
  deriving DecidableEq, Repr

namespace Event

/-- `READ = 0x1`, `WRITE = 0x4`. -/
def bit : Event → BitVec 32
  | read => 0x1
  | write => 0x4

/-- `events & event`. -/
def isIn (event : Event) (events : BitVec 32) : Bool := events &&& event.bit != 0

end Event

def EPOLLIN : BitVec 32 := 0x1
def EPOLLOUT : BitVec 32 := 0x4
def EPOLLERR : BitVec 32 := 0x8
def EPOLLHUP : BitVec 32 := 0x10

structure EventContext (σ φ κ : Type) where
  scheduler : Option σ := none
  fiber : Option φ := none
  cb : Option κ := none
  deriving DecidableEq, Repr

structure FdContext (σ φ κ : Type) where
  read : EventContext σ φ κ := {}
  write : EventContext σ φ κ := {}
  fd : Nat := 0
  events : BitVec 32 := 0
  deriving DecidableEq, Repr

namespace FdContext

variable {σ φ κ : Type}

def getContext (ctx : FdContext σ φ κ) : Event → EventContext σ φ κ
  | .read => ctx.read
  | .write => ctx.write

def setContext (ctx : FdContext σ φ κ) (event : Event) (value : EventContext σ φ κ) :
    FdContext σ φ κ :=
  match event with
  | .read => { ctx with read := value }
  | .write => { ctx with write := value }

/-- `triggerEvent`: the context afterwards and what went to `schedule()`. The waiter
is moved out of its slot by the swap in `FiberAndThread`; an empty one is not queued. -/
def triggerEvent (ctx : FdContext σ φ κ) (event : Event) :
    Except IoFault (FdContext σ φ κ × List (σ × Task φ κ)) :=
  if !event.isIn ctx.events then .error .assertion
  else
    let ctx := { ctx with events := ctx.events &&& ~~~event.bit }
    let slot := ctx.getContext event
    match slot.scheduler with
    | none => .error .nullScheduler
    | some scheduler =>
      match slot.cb with
      | some c =>
        .ok (ctx.setContext event { slot with cb := none, scheduler := none },
          [(scheduler, .cb c)])
      | none =>
        .ok (ctx.setContext event { slot with fiber := none, scheduler := none },
          (slot.fiber.map fun f => (scheduler, Task.fiber f)).toList)

end FdContext

structure IOManager (σ φ κ : Type) where
  /-- `m_pendingEventCount`; an `Int`, so that a decrement below zero would show. -/
  pendingEventCount : Int
  fdContexts : List (FdContext σ φ κ)
  scheduled : List (σ × Task φ κ)

/-- The thread-local values a call sees: `Scheduler::GetThis()`, `Fiber::GetThis()`,
and whether that fiber's state is `EXEC`. -/
structure Caller (σ φ : Type) where
  scheduler : Option σ
  fiber : φ
  exec : Bool

namespace IOManager

variable {σ φ κ : Type}

/-- `contextResize`: new descriptors get an empty context. -/
def contextResize (m : IOManager σ φ κ) (size : Nat) : IOManager σ φ κ :=
  { m with fdContexts :=
      (List.range size).map fun i => (m.fdContexts[i]?).getD { fd := i } }

/-- The table after the constructor's `contextResize(32)`. -/
def create : IOManager σ φ κ := contextResize ⟨0, [], []⟩ 32

/-- `m_fdContexts[fd]`. -/
def context (m : IOManager σ φ κ) (fd : Int) : Except IoFault (FdContext σ φ κ) :=
  if fd < 0 then .error .outOfBounds
  else
    match m.fdContexts[fd.toNat]? with
    | none => .error .outOfBounds
    | some ctx => .ok ctx

def setFd (m : IOManager σ φ κ) (fd : Int) (ctx : FdContext σ φ κ) : IOManager σ φ κ :=
  { m with fdContexts := m.fdContexts.set fd.toNat ctx }

/-- `addEvent`. `fd * 1.5` is truncated to a `size_t`. -/
def addEvent (m : IOManager σ φ κ) (caller : Caller σ φ) (fd : Int) (event : Event)
    (cb : Option κ) (ctl : Bool) : Except IoFault (Int × IOManager σ φ κ) := do
  let m := if (m.fdContexts.length : Int) > fd then m else m.contextResize (fd.toNat * 3 / 2)
  let ctx ← m.context fd
  -- the assertion that the event is not registered yet
  if event.isIn ctx.events then .error .assertion
  else if !ctl then .ok (-1, m)
  else
    let slot := ctx.getContext event
    if slot.scheduler.isSome || slot.fiber.isSome || slot.cb.isSome then .error .assertion
    -- the calling fiber waits itself, and must be executing
    else if cb.isNone && !caller.exec then .error .assertion
    else
      let slot : EventContext σ φ κ :=
        match cb with
        | some c => { scheduler := caller.scheduler, fiber := none, cb := some c }
        | none => { scheduler := caller.scheduler, fiber := some caller.fiber, cb := none }
      let ctx := { ctx with events := ctx.events ||| event.bit }
      .ok (0, { m.setFd fd (ctx.setContext event slot) with
        pendingEventCount := m.pendingEventCount + 1 })

def delEvent (m : IOManager σ φ κ) (fd : Int) (event : Event) (ctl : Bool) :
    Except IoFault (Bool × IOManager σ φ κ) := do
  if (m.fdContexts.length : Int) ≤ fd then .ok (false, m)
  else
    let ctx ← m.context fd
    if !event.isIn ctx.events then .ok (false, m)
    else if !ctl then .ok (false, m)
    else
      -- nobody is scheduled: the waiter is dropped with its slot
      let ctx := { ctx with events := ctx.events &&& ~~~event.bit }
      .ok (true, { m.setFd fd (ctx.setContext event {}) with
        pendingEventCount := m.pendingEventCount - 1 })

/-- Trigger `event` on the descriptor and decrement the counter. -/
def trigger (m : IOManager σ φ κ) (fd : Int) (event : Event) :
    Except IoFault (IOManager σ φ κ) := do
  let ctx ← m.context fd
  let (ctx, tasks) ← ctx.triggerEvent event
  .ok { m.setFd fd ctx with
    pendingEventCount := m.pendingEventCount - 1
    scheduled := m.scheduled ++ tasks }

def cancelEvent (m : IOManager σ φ κ) (fd : Int) (event : Event) (ctl : Bool) :
    Except IoFault (Bool × IOManager σ φ κ) := do
  if (m.fdContexts.length : Int) ≤ fd then .ok (false, m)
  else
    let ctx ← m.context fd
    if !event.isIn ctx.events then .ok (false, m)
    else if !ctl then .ok (false, m)
    else
      let m ← m.trigger fd event
      .ok (true, m)

/-- `if (fd_ctx->events & event) { triggerEvent(event); --m_pendingEventCount; }`, where
the source tests `mask`. -/
def triggerIf (m : IOManager σ φ κ) (fd : Int) (event : Event) (mask : BitVec 32) :
    Except IoFault (IOManager σ φ κ) :=
  if event.isIn mask then m.trigger fd event else .ok m

def cancelALL (m : IOManager σ φ κ) (fd : Int) (ctl : Bool) :
    Except IoFault (Bool × IOManager σ φ κ) := do
  if (m.fdContexts.length : Int) ≤ fd then .ok (false, m)
  else
    let ctx ← m.context fd
    if ctx.events = 0 then .ok (false, m)
    else if !ctl then .ok (false, m)
    else
      -- each test reads `events` as the trigger before it left them
      let m ← m.triggerIf fd .read ctx.events
      let ctx ← m.context fd
      let m ← m.triggerIf fd .write ctx.events
      let ctx ← m.context fd
      if ctx.events = 0 then .ok (true, m) else .error .assertion

/-- The `EPOLLIN`/`EPOLLOUT` bits of a report as `READ`/`WRITE` bits. -/
def realEvents (mask : BitVec 32) : BitVec 32 :=
  (if mask &&& EPOLLIN ≠ 0 then Event.read.bit else 0) |||
    (if mask &&& EPOLLOUT ≠ 0 then Event.write.bit else 0)

/-- The body of the loop in `idle` for one reported event of a descriptor. The error
test looks at the registered bits, as the source does. -/
def dispatch (m : IOManager σ φ κ) (fd : Int) (mask : BitVec 32) (ctl : Bool) :
    Except IoFault (IOManager σ φ κ) := do
  let ctx ← m.context fd
  let mask := if ctx.events &&& (EPOLLERR ||| EPOLLHUP) ≠ 0 then mask ||| EPOLLIN ||| EPOLLOUT
    else mask
  let real_events := realEvents mask
  if ctx.events &&& real_events = 0 then .ok m
  else if !ctl then .ok m
  else
    let m ← m.triggerIf fd .read real_events
    m.triggerIf fd .write real_events

end IOManager

end Dwframe
