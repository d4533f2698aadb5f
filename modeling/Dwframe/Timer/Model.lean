import Dwframe.Lib.OrderedSet
import Mathlib.Logic.Function.Basic

/-!
# `Timer` and `TimerManager`

Timer objects live at heap addresses; `m_timers` is the sequence of addresses its
iterators visit. The comparator reads `m_next` through the object, so the order of
the set depends on fields the operations assign. `setNext` is the only place that
assigns `m_next` of an existing object; assigning it while the object is in the set
is recorded as a fault, and so is `erase(end())`.

Each operation is one call under the manager's write lock. `now` is the value
`GetCurrentMS()` returns inside it. `m_previousTime` is left out: nothing that runs
reads it.
-/
namespace Dwframe

open Lib

inductive TimerFault where
  /-- A freed timer object is used. -/
  | dangling
  /-- `erase(end())`. -/
  | eraseEnd
  /-- `m_next` is assigned while the object is in `m_timers`. -/
  | nextAssignedInSet
  deriving DecidableEq, Repr

/-- A function object: the user's, or `std::bind(&Ontimer, weak_cond, cb)`. -/
inductive Callback (φ ω : Type) where
  | user (f : φ)
  | onTimer (weak_cond : ω) (cb : Option φ)

/-- A timer whose callback has type `κ`; `cb = none` is the null function. -/
structure Timer (κ : Type) where
  recurring : Bool
  ms : UInt64
  next : UInt32
  cb : Option κ

structure TimerManager (κ : Type) where
  object : Nat → Option (Timer κ)
  timers : List Nat
  tickled : Bool
  /-- How often `onTimerInsertedAtFront` has been called. -/
  fronts : Nat

namespace TimerManager

variable {κ : Type}

def empty : TimerManager κ := ⟨fun _ => none, [], false, 0⟩

/-- `Timer::Comparator` on two non-null pointers. -/
def comparator (next : Nat → UInt32) (lhs rhs : Nat) : Bool :=
  if next lhs < next rhs then true
  else if next rhs < next lhs then false
  else lhs < rhs

def nextOf (s : TimerManager κ) (addr : Nat) : UInt32 :=
  match s.object addr with
  | some timer => timer.next
  | none => 0

def deref (s : TimerManager κ) (addr : Nat) : Except TimerFault (Timer κ) :=
  match s.object addr with
  | some timer => .ok timer
  | none => .error .dangling

def store (s : TimerManager κ) (addr : Nat) (timer : Timer κ) : TimerManager κ :=
  { s with object := Function.update s.object addr (some timer) }

/-- `addr->m_next = next`. -/
def setNext (s : TimerManager κ) (addr : Nat) (next : UInt32) :
    Except TimerFault (TimerManager κ) := do
  let timer ← s.deref addr
  if addr ∈ s.timers then .error .nextAssignedInSet
  else .ok (s.store addr { timer with next := next })

def insert (s : TimerManager κ) (addr : Nat) : TimerManager κ :=
  { s with timers := OrderedSet.insert (comparator s.nextOf) addr s.timers }

def find (s : TimerManager κ) (addr : Nat) : Option Nat :=
  OrderedSet.find (comparator s.nextOf) addr s.timers

/-- `m_timers.erase(it)`. -/
def erase (s : TimerManager κ) : Option Nat → Except TimerFault (TimerManager κ)
  | none => .error .eraseEnd
  | some addr => .ok { s with timers := s.timers.erase addr }

/-- `TimerManager::addTimer`, also the tail of `addtimer`. -/
def addTimer (s : TimerManager κ) (addr : Nat) : TimerManager κ :=
  let s := s.insert addr
  let at_front := s.timers.head? = some addr ∧ !s.tickled
  if at_front then { s with tickled := true, fronts := s.fronts + 1 } else s

/-- `addtimer` with the new object at `addr`. -/
def addtimer (s : TimerManager κ) (now : UInt64) (addr : Nat) (ms : UInt64) (cb : Option κ)
    (recurring : Bool) : TimerManager κ :=
  (s.store addr ⟨recurring, ms, (now + ms).toUInt32, cb⟩).addTimer addr

/-- `addConditionTimer`: the bound `Ontimer` is never null, even for a null `cb`. -/
def addConditionTimer {φ ω : Type} (s : TimerManager (Callback φ ω)) (now : UInt64) (addr : Nat)
    (ms : UInt64) (cb : Option φ) (weak_cond : ω) (recurring : Bool) :
    TimerManager (Callback φ ω) :=
  s.addtimer now addr ms (some (.onTimer weak_cond cb)) recurring

def cancel (s : TimerManager κ) (addr : Nat) : Except TimerFault (Bool × TimerManager κ) := do
  let timer ← s.deref addr
  if timer.cb.isSome then
    -- the callback is cleared before the search, which does not read it
    let s := s.store addr { timer with cb := none }
    let s ← s.erase (s.find addr)
    .ok (true, s)
  else .ok (false, s)

def refresh (s : TimerManager κ) (now : UInt64) (addr : Nat) :
    Except TimerFault (Bool × TimerManager κ) := do
  let timer ← s.deref addr
  if timer.cb.isNone then .ok (false, s)
  else
    match s.find addr with
    | none => .ok (false, s)
    | some found =>
      let s ← s.erase (some found)
      let s ← s.setNext addr (now + timer.ms).toUInt32
      .ok (true, s.insert addr)

/-- `reset` inserts twice; the second insertion finds the element already there. -/
def reset (s : TimerManager κ) (now : UInt64) (addr : Nat) (ms : UInt64) (from_now : Bool) :
    Except TimerFault (Bool × TimerManager κ) := do
  let timer ← s.deref addr
  if ms = timer.ms ∧ !from_now then .ok (true, s)
  else if timer.cb.isNone then .ok (false, s)
  else
    match s.find addr with
    | none => .ok (false, s)
    | some found =>
      let s ← s.erase (some found)
      -- the old start is recovered from the 32 bits that `m_next` keeps
      let start := if from_now then now else timer.next.toUInt64 - timer.ms
      let s := s.store addr { timer with ms := ms }
      let s ← s.setNext addr (start + ms).toUInt32
      .ok (true, (s.addTimer addr).insert addr)

/-- The loop of `listExpiredCb` over the timers it took out of the set. -/
def fire (now : UInt64) : List Nat → TimerManager κ →
    Except TimerFault (List (Option κ) × TimerManager κ)
  | [], s => .ok ([], s)
  | addr :: rest, s => do
    let timer ← s.deref addr
    let s ←
      -- a recurring timer is re-armed from `now`, a one-shot one loses its callback
      if timer.recurring then do
        let s ← s.setNext addr (now + timer.ms).toUInt32
        .ok (s.insert addr)
      else .ok (s.store addr { timer with cb := none })
    let (cbs, s) ← fire now rest s
    .ok (timer.cb :: cbs, s)

/-- `listExpiredCb`, whose temporary `now_timer` is allocated at `probe`. -/
def listExpiredCb (s : TimerManager κ) (now : UInt64) (probe : Nat) :
    Except TimerFault (List (Option κ) × TimerManager κ) :=
  if s.timers.isEmpty then .ok ([], s)
  else
    -- `upper_bound(now_timer)`: a timer due now is expired if its address is not above
    let less := comparator (Function.update s.nextOf probe now.toUInt32)
    let expired := OrderedSet.upTo less probe s.timers
    fire now expired { s with timers := OrderedSet.beyond less probe s.timers }

/-- `getNextTimer`; `m_next` is widened before the comparison. -/
def getNextTimer (s : TimerManager κ) (now : UInt64) :
    Except TimerFault (UInt64 × TimerManager κ) := do
  let s := { s with tickled := false }
  match s.timers.head? with
  | none => .ok (-1, s)
  | some addr =>
    let next ← s.deref addr
    if now ≥ next.next.toUInt64 then .ok (0, s)
    else .ok (next.next.toUInt64 - now, s)

/-- The last handle to a timer goes away; a timer in the set is kept by the set. -/
def release (s : TimerManager κ) (addr : Nat) : TimerManager κ :=
  { s with object := Function.update s.object addr none }

end TimerManager

end Dwframe
