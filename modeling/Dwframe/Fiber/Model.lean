import Dwframe.Scheduler.Model

/-!
# Fibers of one thread

`Fiber` keeps in `t_fiber` which fiber runs, and moves the thread from stack to stack with
`swapcontext`. Nothing ties the two together: `swapIn` stores where the thread is in the main
fiber of the scheduler and `call` in the main fiber of the thread, whoever calls them, and
`swapOut` and `back` in the fiber they are called on. `running` is the stack that the thread is
really on; no step of the code reads it.

A context that was loaded describes a stack that has gone on since; to load it again is a fault.
What a fiber does between two calls is left open.
-/
namespace Dwframe

/-- The stack that code runs on. -/
inductive Stack where
  | thread
  /-- The stack of a fiber, below `MainFunc` or `CallerMainFunc`. -/
  | own (f : Nat) (caller : Bool)
  deriving DecidableEq, Repr

/-- What a `ucontext_t` describes. -/
inductive Context where
  /-- `getcontext` in the constructor of a main fiber. -/
  | unset
  /-- `makecontext` with `MainFunc` or `CallerMainFunc`. -/
  | entry (caller : Bool)
  /-- `swapcontext` on this stack; `finished` for the one at the end of `MainFunc`. -/
  | saved (on : Stack) (finished : Bool)
  /-- It was loaded. -/
  | used
  deriving DecidableEq, Repr

structure Fiber (κ : Type) where
  id : Nat
  stacksize : Nat := 0
  state : FiberState
  ctx : Context
  /-- `m_stack` is not null. -/
  stack : Bool
  cb : Option κ
  deriving DecidableEq, Repr

inductive FiberFault where
  /-- `m_state != EXEC` in `swapIn`. -/
  | swapInExec
  /-- The assertions of `reset` and of the destructor. -/
  | notReset
  | notDestroyed
  /-- `GetMainFiber()` or `t_threadFiber` is null. -/
  | nullFiber
  /-- The object is gone. -/
  | dangling
  /-- The context was never saved, or was loaded before. -/
  | wild
  /-- `MainFunc` returns; with `uc_link` null the thread ends. -/
  | exited
  /-- Not an event of this state. -/
  | noStep
  deriving DecidableEq, Repr

/-- The thread-local variables, the objects and `s_fiber_id`, `s_fiber_count`. -/
structure FiberThread (κ : Type) where
  fibers : Nat → Option (Fiber κ)
  /-- The number of the next object. -/
  next : Nat
  fiberId : Nat
  fiberCount : Nat
  /-- `t_fiber`. -/
  current : Option Nat
  /-- `t_threadFiber`. -/
  threadFiber : Option Nat
  /-- `Scheduler::GetMainFiber()`. -/
  mainFiber : Option Nat
  running : Stack

/-- What the code on the running stack does. -/
inductive FiberCall (κ : Type) where
  | getThis
  /-- `Fiber(cb, stacksize, use_caller)`. -/
  | create (cb : Option κ) (stacksize : Nat) (useCaller : Bool)
  | destroy (f : Nat)
  | reset (f : Nat) (cb : Option κ)
  | swapIn (f : Nat)
  | swapOut (f : Nat)
  | call (f : Nat)
  | back (f : Nat)
  | yieldToReady
  | yieldToHold
  /-- The callback returns, or throws. -/
  | returns
  | throws
  | setState (f : Nat) (state : FiberState)
  /-- The scheduler's `t_Fiber` is set. -/
  | setMain (f : Nat)
  deriving DecidableEq, Repr

namespace FiberThread

variable {κ : Type}

/-- A thread before its first call. -/
def start : FiberThread κ where
  fibers := fun _ => none
  next := 0
  fiberId := 0
  fiberCount := 0
  current := none
  threadFiber := none
  mainFiber := none
  running := .thread

def get (s : FiberThread κ) (f : Nat) : Except FiberFault (Fiber κ) :=
  match s.fibers f with
  | none => .error .dangling
  | some fiber => .ok fiber

def set (s : FiberThread κ) (f : Nat) (fiber : Fiber κ) : FiberThread κ :=
  { s with fibers := Function.update s.fibers f (some fiber) }

def setThis (s : FiberThread κ) (f : Option Nat) : FiberThread κ := { s with current := f }

/-- `~Fiber`. -/
def destroy (s : FiberThread κ) (f : Nat) : Except FiberFault (FiberThread κ) := do
  let fiber ← s.get f
  let s := { s with
    fiberCount := s.fiberCount - 1, fibers := Function.update s.fibers f none }
  if fiber.stack then
    if fiber.state.isDead || fiber.state == .init then .ok s else .error .notDestroyed
  else if fiber.cb.isNone && fiber.state == .exec then
    .ok (if s.current = some f then s.setThis none else s)
  else .error .notDestroyed

/-- `GetThis`; the first call makes the main fiber of the thread. -/
def getThis (s : FiberThread κ) : FiberThread κ × Nat :=
  match s.current with
  | some f => (s, f)
  | none =>
    let fiber : Fiber κ := { id := 0, state := .exec, ctx := .unset, stack := false, cb := none }
    ({ s.set s.next fiber with
      next := s.next + 1
      fiberCount := s.fiberCount + 1
      current := some s.next
      threadFiber := some s.next }, s.next)

/-- `Fiber(cb, stacksize, use_caller)`; `configured` is `fiber.stack_size`. -/
def create (configured : Nat) (s : FiberThread κ) (cb : Option κ) (stacksize : Nat)
    (useCaller : Bool) : FiberThread κ :=
  let fiber : Fiber κ := {
    id := s.fiberId + 1
    stacksize := if stacksize ≠ 0 then stacksize else configured
    state := .init
    ctx := .entry useCaller
    stack := true
    cb := cb }
  { s.set s.next fiber with
    next := s.next + 1, fiberId := s.fiberId + 1, fiberCount := s.fiberCount + 1 }

/-- `reset`; the new context begins in `MainFunc`, whatever the constructor was told. -/
def reset (s : FiberThread κ) (f : Nat) (cb : Option κ) : Except FiberFault (FiberThread κ) := do
  let fiber ← s.get f
  if fiber.stack && (fiber.state.isDead || fiber.state == .init) then
    .ok (s.set f { fiber with cb := cb, ctx := .entry false, state := .init })
  else .error .notReset

/-- The thread goes on with what a context describes. -/
def setcontext (s : FiberThread κ) (f : Nat) : Except FiberFault (FiberThread κ) := do
  let fiber ← s.get f
  let loaded := s.set f { fiber with ctx := .used }
  match fiber.ctx with
  | .unset | .used => .error .wild
  | .entry caller => .ok { loaded with running := .own f caller }
  | .saved on false => .ok { loaded with running := on }
  | .saved _ true => .error .exited

/-- `swapcontext(&a->m_ctx, &b->m_ctx)`. -/
def swapcontext (s : FiberThread κ) (a b : Nat) (finished : Bool := false) :
    Except FiberFault (FiberThread κ) := do
  let fiber ← s.get a
  (s.set a { fiber with ctx := .saved s.running finished }).setcontext b

/-- A fiber that a thread-local pointer names. -/
def deref (f : Option Nat) : Except FiberFault Nat :=
  match f with
  | none => .error .nullFiber
  | some f => .ok f

def swapIn (s : FiberThread κ) (f : Nat) : Except FiberFault (FiberThread κ) := do
  let s := s.setThis (some f)
  let fiber ← s.get f
  if fiber.state = .exec then .error .swapInExec
  else
    let main ← deref s.mainFiber
    (s.set f { fiber with state := .exec }).swapcontext main f

def swapOut (s : FiberThread κ) (f : Nat) (finished : Bool := false) :
    Except FiberFault (FiberThread κ) := do
  let s := s.setThis s.mainFiber
  let main ← deref s.mainFiber
  s.swapcontext f main finished

/-- `call`, which does not ask for the state. -/
def call (s : FiberThread κ) (f : Nat) : Except FiberFault (FiberThread κ) := do
  let s := s.setThis (some f)
  let fiber ← s.get f
  let thread ← deref s.threadFiber
  (s.set f { fiber with state := .exec }).swapcontext thread f

def back (s : FiberThread κ) (f : Nat) (finished : Bool := false) :
    Except FiberFault (FiberThread κ) := do
  let s := s.setThis s.threadFiber
  let thread ← deref s.threadFiber
  s.swapcontext f thread finished

def setState (s : FiberThread κ) (f : Nat) (state : FiberState) :
    Except FiberFault (FiberThread κ) := do
  let fiber ← s.get f
  .ok (s.set f { fiber with state := state })

def yieldToReady (s : FiberThread κ) : Except FiberFault (FiberThread κ) := do
  let (s, cur) := s.getThis
  let s ← s.setState cur .ready
  s.swapOut cur

def yieldToHold (s : FiberThread κ) : Except FiberFault (FiberThread κ) :=
  let (s, cur) := s.getThis
  s.swapOut cur

/-- The end of `MainFunc` and of `CallerMainFunc`, on what `t_fiber` is then. -/
def leaveMain (s : FiberThread κ) (throws : Bool) : Except FiberFault (FiberThread κ) :=
  match s.running, s.current with
  | .own _ caller, some f => do
    let fiber ← s.get f
    -- an empty `m_cb` throws
    if !throws && fiber.cb.isNone then .error .noStep
    else
      let fiber := if throws then { fiber with state := .except }
        else { fiber with cb := none, state := .term }
      let s := s.set f fiber
      if caller then s.back f true else s.swapOut f true
  | _, _ => .error .noStep

def step (configured : Nat) (s : FiberThread κ) : FiberCall κ → Except FiberFault (FiberThread κ)
  | .getThis => .ok s.getThis.1
  | .create cb stacksize useCaller => .ok (s.create configured cb stacksize useCaller)
  | .destroy f => s.destroy f
  | .reset f cb => s.reset f cb
  | .swapIn f => s.swapIn f
  | .swapOut f => s.swapOut f
  | .call f => s.call f
  | .back f => s.back f
  | .yieldToReady => s.yieldToReady
  | .yieldToHold => s.yieldToHold
  | .returns => s.leaveMain false
  | .throws => s.leaveMain true
  | .setState f state => s.setState f state
  | .setMain f => .ok { s with mainFiber := some f }

end FiberThread

end Dwframe
