import Dwframe.Lib.Lock

/-!
# The scoped guards

A guard locks its mutex where it is constructed and is to leave it unlocked when it is destroyed;
`lock` and `unlock` may be called in between, and `m_locked` is to tell which of them has something
to do. `ScopedLockImpl` and `ReadScopedLockImpl` differ in the call that locks alone. Their
destructors do not look at `m_locked`. `WriteScopedLockImpl` looks at it there, but its `unlock`
does not clear it.
-/
namespace Dwframe

open Lib

/-- What a guard calls on its mutex. -/
inductive MutexCall where
  | lock
  | rdlock
  | wrlock
  | unlock
  deriving DecidableEq, Repr

/-- The calls of `Mutex`, `SpinLock` and `RWMutex`, as what they do to the lock. -/
def MutexCall.event : MutexCall → LockEvent
  | .lock => .take .exclusive
  | .rdlock => .take .shared
  | .wrlock => .take .exclusive
  | .unlock => .release

/-- `m_locked`, and the calls made on `m_mutex` so far. -/
structure Guard where
  locked : Bool
  calls : List MutexCall
  deriving DecidableEq, Repr

namespace Guard

/-- The constructors; `take` is the call that locks. -/
def construct (take : MutexCall) : Guard := ⟨true, [take]⟩

def lock (take : MutexCall) (g : Guard) : Guard :=
  if !g.locked then ⟨true, g.calls ++ [take]⟩ else g

/-- `unlock` of `ScopedLockImpl` and `ReadScopedLockImpl`. -/
def unlock (g : Guard) : Guard := if g.locked then ⟨false, g.calls ++ [.unlock]⟩ else g

/-- The destructors of `ScopedLockImpl` and `ReadScopedLockImpl`. -/
def destroy (g : Guard) : Guard := { g with calls := g.calls ++ [.unlock] }

end Guard

/-- The members of a guard. -/
structure GuardImpl where
  construct : Guard
  lock : Guard → Guard
  unlock : Guard → Guard
  destroy : Guard → Guard

/-- What `ScopedLockImpl` and `ReadScopedLockImpl` share. -/
def scopedImpl (take : MutexCall) : GuardImpl :=
  -- `destroy` is not `unlock`
  ⟨.construct take, .lock take, .unlock, .destroy⟩

def ScopedLockImpl : GuardImpl := scopedImpl .lock

def ReadScopedLockImpl : GuardImpl := scopedImpl .rdlock

/-- `unlock` of `WriteScopedLockImpl`: `m_locked` stays. -/
def Guard.unlockWrite (g : Guard) : Guard :=
  if g.locked then { g with calls := g.calls ++ [.unlock] } else g

def WriteScopedLockImpl : GuardImpl :=
  ⟨.construct .wrlock, .lock .wrlock, .unlockWrite, .unlockWrite⟩

/-- The explicit calls. -/
inductive GuardCall where
  | lock
  | unlock
  deriving DecidableEq, Repr

namespace GuardImpl

def call (impl : GuardImpl) (g : Guard) : GuardCall → Guard
  | .lock => impl.lock g
  | .unlock => impl.unlock g

/-- The guard after some explicit calls. -/
def run (impl : GuardImpl) (ops : List GuardCall) : Guard := ops.foldl impl.call impl.construct

/-- The calls on the mutex from the constructor to the destructor. -/
def life (impl : GuardImpl) (ops : List GuardCall) : List MutexCall :=
  (impl.destroy (impl.run ops)).calls

theorem run_append (impl : GuardImpl) (ops : List GuardCall) (op : GuardCall) :
    impl.run (ops ++ [op]) = impl.call (impl.run ops) op := by
  rw [run, List.foldl_append]
  rfl

end GuardImpl

inductive GuardClass where
  | scopedLock
  | readScopedLock
  | writeScopedLock
  deriving DecidableEq, Repr

namespace GuardClass

def impl : GuardClass → GuardImpl
  | scopedLock => ScopedLockImpl
  | readScopedLock => ReadScopedLockImpl
  | writeScopedLock => WriteScopedLockImpl

/-- The call that locks. -/
def take : GuardClass → MutexCall
  | scopedLock => .lock
  | readScopedLock => .rdlock
  | writeScopedLock => .wrlock

/-- The last explicit call is no `unlock`; a `WriteScopedLockImpl` has none at all. -/
def WellUsed : GuardClass → List GuardCall → Prop
  | scopedLock, ops => ops.getLast? ≠ some .unlock
  | readScopedLock, ops => ops.getLast? ≠ some .unlock
  | writeScopedLock, ops => .unlock ∉ ops

instance (guard : GuardClass) (ops : List GuardCall) : Decidable (guard.WellUsed ops) := by
  cases guard <;> unfold WellUsed <;> infer_instance

end GuardClass

/-- `n` times, the mutex is locked and unlocked. -/
def turns (take : MutexCall) (n : Nat) : List MutexCall :=
  (List.replicate n [take, MutexCall.unlock]).flatten

/-- The mutex is locked and unlocked in strict alternation, the last call is `unlock`: what is
unlocked is held, what is locked is not, and in the end nothing is held. -/
structure Disciplined (take : MutexCall) (calls : List MutexCall) : Prop where
  alternates : ∃ n, calls = turns take n
  paired : LockEvent.Paired (calls.map MutexCall.event)

/-! ### Turns -/

section Turns

variable {take : MutexCall} {access : Access}

theorem turns_succ (n : Nat) : turns take (n + 1) = turns take n ++ [take] ++ [.unlock] := by
  rw [turns, List.replicate_succ', List.flatten_append, List.append_assoc]
  rfl

theorem turns_paired (takes : take.event = .take access) (n : Nat) :
    LockEvent.Paired ((turns take n).map MutexCall.event) := by
  rw [turns, List.map_flatten, List.map_replicate, List.map_cons, takes]
  exact LockEvent.paired_turns access n

theorem turns_disciplined (takes : take.event = .take access) (n : Nat) :
    Disciplined take (turns take n) :=
  ⟨⟨n, rfl⟩, turns_paired takes n⟩

/-- An unlock behind whole turns. -/
theorem not_disciplined_of_spare (takes : take.event = .take access) {n : Nat}
    {more calls : List MutexCall} (spare : calls = turns take n ++ .unlock :: more) :
    ¬Disciplined take calls := by
  intro disciplined
  have paired := disciplined.paired
  rw [spare, List.map_append, List.map_cons] at paired
  exact LockEvent.not_paired_of_release (turns_paired takes n) paired

end Turns

/-! ### `ScopedLockImpl` and `ReadScopedLockImpl` -/

namespace Guard

variable {take : MutexCall} {g : Guard}

/-- With `m_locked`, the guard has locked once more than unlocked. -/
def InTurn (take : MutexCall) (g : Guard) : Prop :=
  ∃ n, g.calls = turns take n ++ if g.locked then [take] else []

theorem InTurn.lock (inTurn : g.InTurn take) : (g.lock take).InTurn take := by
  obtain ⟨n, calls⟩ := inTurn
  refine ⟨n, ?_⟩
  cases locked : g.locked with
  | true => simp [Guard.lock, locked, calls]
  | false => simp [Guard.lock, locked, calls]

theorem InTurn.unlock (inTurn : g.InTurn take) : g.unlock.InTurn take := by
  obtain ⟨n, calls⟩ := inTurn
  cases locked : g.locked with
  | true => exact ⟨n + 1, by simp [Guard.unlock, locked, calls, turns_succ]⟩
  | false => exact ⟨n, by simp [Guard.unlock, locked, calls]⟩

theorem lock_locked : (g.lock take).locked = true := by
  cases locked : g.locked <;> simp [Guard.lock, locked]

theorem unlock_locked : g.unlock.locked = false := by
  cases locked : g.locked <;> simp [Guard.unlock, locked]

end Guard

theorem scopedImpl_run (take : MutexCall) (ops : List GuardCall) :
    ((scopedImpl take).run ops).InTurn take ∧
      (((scopedImpl take).run ops).locked = true ↔ ops.getLast? ≠ some .unlock) := by
  -- on the calls so far; the last one alone sets `m_locked`
  induction ops using List.reverseRecOn with
  | nil => exact ⟨⟨0, rfl⟩, iff_of_true rfl (by simp)⟩
  | append_singleton ops op ih =>
    rw [GuardImpl.run_append, List.getLast?_concat]
    cases op with
    | lock => exact ⟨ih.1.lock, iff_of_true Guard.lock_locked (by simp)⟩
    | unlock =>
      refine ⟨ih.1.unlock, iff_of_false ?_ (by simp)⟩
      exact Bool.eq_false_iff.mp Guard.unlock_locked

/-- The destructor unlocks what may be unlocked. -/
theorem scopedImpl_life (take : MutexCall) (ops : List GuardCall) : ∃ n,
    (ops.getLast? ≠ some .unlock → (scopedImpl take).life ops = turns take (n + 1)) ∧
      (ops.getLast? = some .unlock → (scopedImpl take).life ops = turns take n ++ [.unlock]) := by
  obtain ⟨⟨n, calls⟩, locked⟩ := scopedImpl_run take ops
  have life : (scopedImpl take).life ops = ((scopedImpl take).run ops).calls ++ [.unlock] := rfl
  refine ⟨n, fun used => ?_, fun misused => ?_⟩
  · rw [life, calls, if_pos (locked.mpr used), turns_succ]
  · rw [life, calls, if_neg fun held => locked.mp held misused, List.append_nil]

/-! ### `WriteScopedLockImpl` -/

/-- It locks once, and every `unlock` unlocks. -/
theorem writeScopedLockImpl_run (ops : List GuardCall) : WriteScopedLockImpl.run ops =
    ⟨true, .wrlock :: List.replicate (ops.count .unlock) .unlock⟩ := by
  induction ops using List.reverseRecOn with
  | nil => rfl
  | append_singleton ops op ih =>
    rw [GuardImpl.run_append, ih, List.count_append]
    -- `lock` finds `m_locked` set, and so does `unlock`
    cases op with
    | lock => rfl
    | unlock =>
      rw [List.count_singleton_self, List.replicate_succ']
      rfl

theorem writeScopedLockImpl_life (ops : List GuardCall) : WriteScopedLockImpl.life ops =
    turns .wrlock 1 ++ List.replicate (ops.count .unlock) .unlock := by
  rw [GuardImpl.life, writeScopedLockImpl_run]
  change MutexCall.wrlock :: List.replicate _ _ ++ [MutexCall.unlock] = _
  rw [List.cons_append, ← List.replicate_succ', List.replicate_succ]
  rfl

/-! ### The outcome -/

section Outcome

variable {guard : GuardClass} {ops : List GuardCall}

theorem take_event (guard : GuardClass) : ∃ access, guard.take.event = .take access := by
  cases guard <;> exact ⟨_, rfl⟩

theorem turns_of_used (used : guard.WellUsed ops) :
    ∃ n, guard.impl.life ops = turns guard.take n := by
  cases guard with
  | scopedLock =>
    obtain ⟨n, held, -⟩ := scopedImpl_life .lock ops
    exact ⟨n + 1, held used⟩
  | readScopedLock =>
    obtain ⟨n, held, -⟩ := scopedImpl_life .rdlock ops
    exact ⟨n + 1, held used⟩
  | writeScopedLock =>
    refine ⟨1, ?_⟩
    rw [GuardClass.impl, writeScopedLockImpl_life, List.count_eq_zero.mpr used]
    rfl

/-- A guard that is not used well has an unlock to spare. -/
theorem spare_of_misused (misused : ¬guard.WellUsed ops) :
    ∃ n more, guard.impl.life ops = turns guard.take n ++ .unlock :: more := by
  cases guard with
  | scopedLock =>
    obtain ⟨n, -, free⟩ := scopedImpl_life .lock ops
    exact ⟨n, [], free (Decidable.not_not.mp misused)⟩
  | readScopedLock =>
    obtain ⟨n, -, free⟩ := scopedImpl_life .rdlock ops
    exact ⟨n, [], free (Decidable.not_not.mp misused)⟩
  | writeScopedLock =>
    have some_unlock := List.count_pos_iff.mpr (Decidable.not_not.mp misused)
    obtain ⟨k, count⟩ := Nat.exists_eq_succ_of_ne_zero (Nat.pos_iff_ne_zero.mp some_unlock)
    refine ⟨1, List.replicate k .unlock, ?_⟩
    rw [GuardClass.impl, writeScopedLockImpl_life, count, List.replicate_succ]
    rfl

/-- A guard locks and unlocks its mutex in strict alternation, the destructor included, exactly if
the explicit calls leave the last unlock to the destructor. -/
theorem guard_disciplined_iff (guard : GuardClass) (ops : List GuardCall) :
    Disciplined guard.take (guard.impl.life ops) ↔ guard.WellUsed ops := by
  obtain ⟨access, takes⟩ := take_event guard
  constructor
  · intro disciplined
    by_contra misused
    obtain ⟨n, more, spare⟩ := spare_of_misused misused
    exact not_disciplined_of_spare takes spare disciplined
  · intro used
    obtain ⟨n, life⟩ := turns_of_used used
    rw [life]
    exact turns_disciplined takes n

/-- `Scheduler::start` unlocks its guard before it returns. -/
theorem unlocked_and_destroyed :
    GuardClass.scopedLock.impl.life [.unlock] = [.lock, .unlock, .unlock] ∧
      ¬Disciplined GuardClass.scopedLock.take (GuardClass.scopedLock.impl.life [.unlock]) := by
  refine ⟨by decide, fun disciplined => ?_⟩
  have paired := disciplined.paired
  exact absurd paired (by decide)

end Outcome

/-! ### Threads -/

/-- A guard in a thread, with its explicit calls. -/
structure Scope where
  guard : GuardClass
  ops : List GuardCall

/-- What a scope does to the lock. -/
def Scope.events (scope : Scope) : List LockEvent :=
  (scope.guard.impl.life scope.ops).map MutexCall.event

/-- One scope after the other. -/
def program (scopes : List Scope) : List LockEvent := (scopes.map Scope.events).flatten

theorem program_single (scope : Scope) : program [scope] = scope.events := by
  rw [program, List.map_singleton, List.flatten_singleton]

theorem program_paired {scopes : List Scope}
    (used : ∀ scope ∈ scopes, scope.guard.WellUsed scope.ops) :
    LockEvent.Paired (program scopes) := by
  refine LockEvent.paired_flatten fun events member => ?_
  obtain ⟨scope, among, rfl⟩ := List.mem_map.mp member
  obtain ⟨access, takes⟩ := take_event scope.guard
  obtain ⟨n, life⟩ := turns_of_used (used scope among)
  rw [Scope.events, life]
  exact turns_paired takes n

section Threads

variable {ι : Type} [DecidableEq ι] {threads : ι → List Scope}

/-- Threads on one mutex, in any interleaving: where all guards are used well, a thread inside a
`ScopedLockImpl` or a `WriteScopedLockImpl` is there alone. -/
theorem critical_sections_exclusive [Fintype ι]
    (used : ∀ i, ∀ scope ∈ threads i, scope.guard.WellUsed scope.ops) {schedule : List ι}
    {w : Parties ι}
    (ran : Run.exec Parties.step (.start fun i => program (threads i)) schedule = some w) {i j : ι}
    (inside : w.holds i = some .exclusive) (other : j ≠ i) : w.holds j = none :=
  Parties.exclusion (fun i => program_paired (used i)) ran inside other

/-- One guard that is not used well can let two other threads in at once. -/
theorem critical_sections_meet {guard : GuardClass} {ops : List GuardCall}
    (misused : ¬guard.WellUsed ops) {other : GuardClass} (exclusive : other ≠ .readScopedLock)
    {i j k : ι} (ji : j ≠ i) (ki : k ≠ i) (jk : j ≠ k) (this : threads i = [⟨guard, ops⟩])
    (first : threads j = [⟨other, []⟩]) (second : threads k = [⟨other, []⟩]) :
    ∃ schedule w,
      Run.exec Parties.step (.start fun i => program (threads i)) schedule = some w ∧
        w.holds j = some .exclusive ∧ w.holds k = some .exclusive := by
  -- the turns before the spare unlock are paired, whatever comes behind it
  obtain ⟨n, more, life⟩ := spare_of_misused misused
  obtain ⟨access, takes⟩ := take_event guard
  have spare : program (threads i) =
      (turns guard.take n).map MutexCall.event ++ .release :: more.map MutexCall.event := by
    rw [this, program_single, Scope.events, life, List.map_append]
    rfl
  have enters : program [⟨other, []⟩] = [.take .exclusive, .release] := by
    cases other with
    | scopedLock => rfl
    | readScopedLock => exact absurd rfl exclusive
    | writeScopedLock => rfl
  exact Parties.two_inside ji ki jk (turns_paired takes n) spare
    ((congrArg program first).trans enters) ((congrArg program second).trans enters)

end Threads

end Dwframe
