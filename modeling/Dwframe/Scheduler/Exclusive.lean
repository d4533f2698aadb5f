import Dwframe.Scheduler.Moves
import Mathlib.Data.Fintype.Basic

/-!
# Two workers and one fiber

The dequeue section skips a fiber in state `EXEC`, but the state is set only later, in
`swapIn`, and is given up before the switch back when the fiber yields `READY`. With two
entries for one fiber, two workers can therefore hold it at once. As long as no dequeue
takes a fiber that another worker still holds, fibers are owned by one worker at a time
and `swapIn` never finds its fiber executing.
-/
namespace Dwframe

variable {ι κ : Type}

/-- The fiber an entry names. -/
def Entry.fiber? (e : Entry κ) : Option Nat :=
  match e.task with
  | .fiber f => some f
  | .cb _ => none

namespace Pc

/-- The fiber a worker has in hand, from the dequeue until it is done with it. -/
def fiber? : Pc κ → Option Nat
  | dispatch e => e.fiber?
  | task _ _ f => some f
  | _ => none

/-- The fiber a worker is about to switch to. -/
def target? : Pc κ → Option Nat
  | dispatch e => e.fiber?
  | task .enter _ f => some f
  | task .swap _ f => some f
  | _ => none

/-- The fiber a worker executes: `swapOut` ends it. -/
def executes? : Pc κ → Option Nat
  | task .running _ f => some f
  | task .leaving _ f => some f
  | _ => none

theorem fiber?_of_executes? {pc : Pc κ} {f : Nat} (executes : pc.executes? = some f) :
    pc.fiber? = some f := by
  unfold executes? at executes
  split at executes
  · exact executes
  · exact executes
  · cases executes

end Pc

/-- In hand, or kept as `cb_fiber`. -/
def Worker.Owns (worker : Worker κ) (f : Nat) : Prop :=
  worker.pc.fiber? = some f ∨ worker.cbFiber = some f

instance (worker : Worker κ) (f : Nat) : Decidable (worker.Owns f) :=
  inferInstanceAs (Decidable (_ ∨ _))

namespace Scheduler

variable {s : Scheduler ι κ} {worker : Worker κ} {move : Move κ}

/-! ### What a move does to ownership and states -/

/-- A worker comes to own only what it allocates. -/
theorem Moves.owns (moves : Moves s worker move) {f : Nat} (owns : move.worker.Owns f) :
    worker.Owns f ∨ (move.alloc = true ∧ f = s.fiberCount) := by
  unfold Worker.Owns at owns ⊢
  -- a move hands on the fiber it found, or the one it allocated as `cb_fiber`
  cases moves <;> simp_all [Pc.fiber?, Entry.fiber?]

/-- Only the owner of a fiber writes its state. -/
theorem Moves.writes_owned (moves : Moves s worker move) {f : Nat} {value : FiberState}
    (writes : move.write = some (f, value)) : worker.Owns f ∨ f = s.fiberCount := by
  have inHand : ∀ {stage : Stage} {e : Entry κ} {g : Nat}, worker.pc = .task stage e g →
      worker.Owns g := fun pc => .inl (by rw [pc]; rfl)
  cases moves with
  | reuse pc task cached idle =>
    cases writes
    exact .inl (.inr cached)
  | allocate pc task uncached =>
    cases writes
    exact .inr rfl
  | swapIn pc =>
    cases writes
    exact .inl (inHand pc)
  | retire pc dead =>
    rw [Option.ite_none_right_eq_some] at writes
    cases writes.2
    exact .inl (inHand pc)
  | park pc =>
    cases writes
    exact .inl (inHand pc)
  | _ => cases writes

theorem Moves.pushes_owned (moves : Moves s worker move) {f : Nat}
    (pushes : move.push = some f) : worker.Owns f := by
  cases moves with
  | requeue pc =>
    cases pushes
    exact .inl (by rw [pc]; rfl)
  | _ => cases pushes

/-- A worker whose target does not execute keeps a target that does not. -/
theorem Moves.calm (moves : Moves s worker move)
    (calm : ∀ f, worker.pc.target? = some f → s.state f ≠ .exec) {f : Nat}
    (target : move.worker.pc.target? = some f) : (s.writeState move.write).state f ≠ .exec := by
  cases moves with
  | take pc task alive =>
    cases target
    exact calm f (by rw [pc, Pc.target?, Entry.fiber?, task])
  | reuse pc task cached idle =>
    cases target
    simp [writeState]
  | allocate pc task uncached =>
    cases target
    simp [writeState]
  | enter pc notExec =>
    cases target
    exact notExec
  | _ => cases target

/-- The assertion in `swapIn` holds for a target that does not execute. -/
theorem Moves.asserts (moves : Moves s worker move)
    (calm : ∀ f, worker.pc.target? = some f → s.state f ≠ .exec) (e : Entry κ) :
    move.worker.pc ≠ .aborted .swapIn e := by
  intro failed
  cases moves with
  | enterFails pc exec => exact calm _ (by rw [pc]; rfl) exec
  | _ => cases failed

/-! ### The condition and the invariant -/

/-- The fiber that the dequeue section would take. -/
def takes? (s : Scheduler ι κ) (tid : Int) : Option Nat :=
  (s.fibers.find? (s.eligible tid)).bind Entry.fiber?

/-- A dequeue takes no fiber that another worker owns. -/
def Unshared (tid : ι → Int) (s : Scheduler ι κ) : Action ι κ → Prop
  | .dequeue w => ∀ f ∈ s.takes? (tid w), ∀ v, v ≠ w → ¬(s.workers v).Owns f
  | _ => True

instance [Fintype ι] [DecidableEq ι] (tid : ι → Int) (s : Scheduler ι κ) :
    (a : Action ι κ) → Decidable (Unshared tid s a)
  | .dequeue w =>
    inferInstanceAs (Decidable (∀ f ∈ s.takes? (tid w), ∀ v, v ≠ w → ¬(s.workers v).Owns f))
  | .create => .isTrue trivial
  | .schedule .. => .isTrue trivial
  | .scheduleRange .. => .isTrue trivial
  | .setFlags .. => .isTrue trivial
  | .setIoQuiet .. => .isTrue trivial
  | .begin .. => .isTrue trivial
  | .leave .. => .isTrue trivial
  | .advance .. => .isTrue trivial

structure Exclusive (s : Scheduler ι κ) : Prop where
  unique : ∀ v w f, (s.workers v).Owns f → (s.workers w).Owns f → v = w
  owned : ∀ w f, (s.workers w).Owns f → f < s.fiberCount
  queued : ∀ e ∈ s.fibers, ∀ f ∈ e.fiber?, f < s.fiberCount
  calm : ∀ w f, (s.workers w).pc.target? = some f → s.state f ≠ .exec
  asserts : ∀ w e, (s.workers w).pc ≠ .aborted .swapIn e

theorem Pc.fiber?_of_target? {pc : Pc κ} {f : Nat} (target : pc.target? = some f) :
    pc.fiber? = some f := by
  unfold Pc.target? at target
  split at target
  · exact target
  · exact target
  · exact target
  · cases target

variable [DecidableEq ι]

/-- Replacing a worker by one that has not failed. -/
private theorem Exclusive.asserts_update (exclusive : s.Exclusive) (w : ι) {worker : Worker κ}
    (asserts : ∀ e, worker.pc ≠ .aborted .swapIn e) :
    ∀ v e, (Function.update s.workers w worker v).pc ≠ .aborted .swapIn e :=
  (Function.forall_update_iff s.workers fun _ u => ∀ e, u.pc ≠ .aborted .swapIn e).mpr
    ⟨asserts, fun v _ => exclusive.asserts v⟩

/-- The owners after one worker was replaced, by what the new one owns. -/
private theorem owns_update {w : ι} {worker : Worker κ} {gained : Nat → Prop}
    (owns : ∀ f, worker.Owns f → (s.workers w).Owns f ∨ gained f) (v : ι) (f : Nat)
    (after : (Function.update s.workers w worker v).Owns f) :
    (s.workers v).Owns f ∨ (v = w ∧ gained f) := by
  by_cases same : v = w
  · subst same
    rw [Function.update_self] at after
    exact (owns f after).imp_right fun new => ⟨rfl, new⟩
  · rw [Function.update_of_ne same] at after
    exact .inl after

omit [DecidableEq ι] in
/-- Owners stay unique when one worker gains fibers that no other worker owns. -/
private theorem Exclusive.unique_gained (exclusive : s.Exclusive) {w : ι}
    {workers : ι → Worker κ} {gained : Nat → Prop}
    (before : ∀ v f, (workers v).Owns f → (s.workers v).Owns f ∨ (v = w ∧ gained f))
    (free : ∀ f, gained f → ∀ v, v ≠ w → ¬(s.workers v).Owns f) :
    ∀ u v f, (workers u).Owns f → (workers v).Owns f → u = v := by
  intro u v f first second
  rcases before u f first with old | ⟨here, new⟩ <;>
    rcases before v f second with old' | ⟨here', new'⟩
  · exact exclusive.unique u v f old old'
  · by_contra differ
    exact free f new' u (here' ▸ differ) old
  · by_contra differ
    exact free f new v (fun eq => differ (here.trans eq.symm)) old'
  · rw [here, here']

omit [DecidableEq ι] in
/-- A move does not write the state of a fiber that another worker owns. -/
private theorem state_untouched (exclusive : s.Exclusive) {v w : ι} (differ : v ≠ w) {f : Nat}
    (owned : (s.workers v).Owns f) {write : Option (Nat × FiberState)}
    (writes : ∀ g value, write = some (g, value) → (s.workers w).Owns g ∨ g = s.fiberCount) :
    (s.writeState write).state f = s.state f := by
  cases write with
  | none => rfl
  | some entry =>
    obtain ⟨g, value⟩ := entry
    have other : f ≠ g := by
      rintro rfl
      rcases writes f value rfl with mine | rfl
      · exact differ (exclusive.unique v w f owned mine)
      · exact absurd (exclusive.owned v _ owned) (Nat.lt_irrefl _)
    exact Function.update_of_ne other _ _

/-- A worker's step that writes only what it owns, or a fresh fiber. -/
private theorem perform_exclusive (exclusive : s.Exclusive) {w : ι}
    (owns : ∀ f, move.worker.Owns f →
      (s.workers w).Owns f ∨ (move.alloc = true ∧ f = s.fiberCount))
    (writes : ∀ f value, move.write = some (f, value) →
      (s.workers w).Owns f ∨ f = s.fiberCount)
    (pushes : ∀ f, move.push = some f → (s.workers w).Owns f)
    (calm : ∀ f, move.worker.pc.target? = some f → (s.writeState move.write).state f ≠ .exec)
    (asserts : ∀ e, move.worker.pc ≠ .aborted .swapIn e) : (s.perform w move).Exclusive := by
  have bound : ∀ f, f < s.fiberCount → f < (s.perform w move).fiberCount := by
    intro f below
    rw [perform_fiberCount]
    split <;> omega
  -- whoever owns a fiber afterwards owned it before, except for a fresh one
  have before : ∀ v f, ((s.perform w move).workers v).Owns f →
      (s.workers v).Owns f ∨ (v = w ∧ move.alloc = true ∧ f = s.fiberCount) := by
    rw [perform_workers]
    exact owns_update owns
  constructor
  · apply exclusive.unique_gained before
    rintro f ⟨-, rfl⟩ v _ owned
    exact absurd (exclusive.owned v _ owned) (Nat.lt_irrefl _)
  · intro v f after
    rcases before v f after with old | ⟨-, alloc, rfl⟩
    · exact bound f (exclusive.owned v f old)
    · rw [perform_fiberCount, if_pos alloc]
      exact Nat.lt_succ_self _
  · intro e member f named
    rw [perform_fibers] at member
    rcases List.mem_append.mp member with old | new
    · exact bound f (exclusive.queued e old f named)
    · obtain ⟨g, pushed, rfl⟩ := Option.map_eq_some_iff.mp (Option.mem_toList.mp new)
      cases named
      exact bound _ (exclusive.owned w _ (pushes _ pushed))
  · intro v f target
    rw [perform_state]
    rw [perform_workers] at target
    by_cases same : v = w
    · subst same
      rw [Function.update_self] at target
      exact calm f target
    · rw [Function.update_of_ne same] at target
      have owned : (s.workers v).Owns f := .inl (Pc.fiber?_of_target? target)
      -- the target of another worker is owned by that worker
      rw [state_untouched exclusive same owned writes]
      exact exclusive.calm v f target
  · rw [perform_workers]
    exact exclusive.asserts_update w asserts

variable {tid : ι → Int}

/-- A worker that changes nothing but its program counter, which names no fiber. -/
private theorem setWorker_exclusive (exclusive : s.Exclusive) {w : ι} {pc : Pc κ}
    (idle : pc.fiber? = none) (asserts : ∀ e, pc ≠ .aborted .swapIn e) :
    (s.setWorker w { s.workers w with pc := pc }).Exclusive := by
  have same : s.setWorker w { s.workers w with pc := pc } =
      s.perform w { worker := { s.workers w with pc := pc } } := by
    simp [perform, setWorker, writeState, scheduleNolock]
  rw [same]
  refine perform_exclusive exclusive ?_ (by simp) (by simp) ?_ asserts
  · rintro f (inHand | cached)
    · rw [idle] at inHand
      cases inHand
    · exact .inl (.inr cached)
  · intro f target
    rw [Pc.fiber?_of_target? target] at idle
    cases idle

private theorem dequeue_exclusive (exclusive : s.Exclusive) {w : ι}
    (unshared : Unshared tid s (.dequeue w)) :
    (s.dequeue (tid w) w).Exclusive := by
  unfold Scheduler.dequeue
  split
  next => exact setWorker_exclusive exclusive rfl (by simp)
  next e found =>
    have member := List.mem_of_find?_eq_some found
    -- the one place where the condition on the run is used
    have free : ∀ f, e.fiber? = some f → ∀ v, v ≠ w → ¬(s.workers v).Owns f := by
      intro f named
      exact unshared f (by rw [takes?, found]; exact named)
    set taker : Worker κ := { s.workers w with pc := .dispatch e } with taker_eq
    have after : ∀ v f, (Function.update s.workers w taker v).Owns f →
        (s.workers v).Owns f ∨ (v = w ∧ e.fiber? = some f) := by
      apply owns_update
      rintro f (inHand | cached)
      · exact .inr inHand
      · exact .inl (.inr cached)
    constructor
    · exact exclusive.unique_gained after free
    · intro v f owns
      rcases after v f owns with old | ⟨-, named⟩
      · exact exclusive.owned v f old
      · exact exclusive.queued e member f named
    · intro other remains
      exact exclusive.queued other (List.mem_of_mem_eraseP remains)
    · intro v f target
      change s.state f ≠ .exec
      change (Function.update s.workers w taker v).pc.target? = some f at target
      by_cases same : v = w
      · subst same
        rw [Function.update_self] at target
        -- the dequeue section has just read that the state is not `EXEC`
        have picked := List.find?_some found
        rw [taker_eq, Pc.target?, Entry.fiber?] at target
        simp only [eligible, Bool.and_eq_true] at picked
        split at target
        next g task =>
          cases target
          simpa [task] using picked.2
        next => cases target
      · rw [Function.update_of_ne same] at target
        exact exclusive.calm v f target
    · exact exclusive.asserts_update w (by simp [taker_eq])

theorem exclusive_preserved : Preserved tid (Unshared tid) (Exclusive (κ := κ)) where
  create s exclusive := by
    refine ⟨exclusive.unique, ?_, ?_, ?_, exclusive.asserts⟩
    · intro w f owns
      exact Nat.lt_succ_of_lt (exclusive.owned w f owns)
    · intro e member f named
      exact Nat.lt_succ_of_lt (exclusive.queued e member f named)
    · intro w f target
      -- the new fiber is nobody's target
      have below := exclusive.owned w f (.inl (Pc.fiber?_of_target? target))
      change Function.update s.state s.fiberCount FiberState.init f ≠ .exec
      rw [Function.update_of_ne (Nat.ne_of_lt below)]
      exact exclusive.calm w f target
  schedule s task thread exclusive known := by
    constructor
    · simpa using exclusive.unique
    · simpa using exclusive.owned
    · intro e member f named
      rw [scheduleNolock_fiberCount]
      rw [scheduleNolock_fibers] at member
      rcases List.mem_append.mp member with old | new
      · exact exclusive.queued e old f named
      · obtain ⟨t, rfl, rfl⟩ := Option.map_eq_some_iff.mp (Option.mem_toList.mp new)
        cases t with
        | fiber g =>
          cases named
          simpa [Scheduler.known] using known
        | cb c => cases named
    · simpa using exclusive.calm
    · simpa using exclusive.asserts
  flags s _ _ _ exclusive :=
    ⟨exclusive.unique, exclusive.owned, exclusive.queued, exclusive.calm, exclusive.asserts⟩
  start s w exclusive _ := setWorker_exclusive exclusive rfl (by simp)
  dequeue s w exclusive unshared _ := dequeue_exclusive exclusive unshared
  leave s w how e f exclusive _ pc := by
    have inHand : (s.workers w).Owns f := .inl (by rw [pc]; rfl)
    refine perform_exclusive exclusive ?_ ?_ (by simp [leaveMove]) ?_ (by simp [leaveMove])
    · rintro g (same | cached)
      · cases same
        exact .inl inHand
      · exact .inl (.inr cached)
    · intro g value written
      obtain ⟨_, -, eq⟩ := Option.map_eq_some_iff.mp written
      cases eq
      exact .inl inHand
    · intro g target
      cases target
  advance s w move exclusive _ moves :=
    perform_exclusive exclusive (fun _ => moves.owns) (fun _ _ => moves.writes_owned)
      (fun _ => moves.pushes_owned) (fun _ => moves.calm (exclusive.calm w))
      (moves.asserts (exclusive.calm w))

omit [DecidableEq ι] in
theorem initial_exclusive : (initial : Scheduler ι κ).Exclusive where
  unique v w f owns := by simp [initial, Worker.Owns, Pc.fiber?] at owns
  owned w f owns := by simp [initial, Worker.Owns, Pc.fiber?] at owns
  queued e member := by simp [initial] at member
  calm w f target := by simp [initial, Pc.target?] at target
  asserts w e := by simp [initial]

/-- No fiber is executed by two workers, and no worker has failed the assertion in
`swapIn`. -/
structure SwapSafe (s : Scheduler ι κ) : Prop where
  one_executor : ∀ v w f, (s.workers v).pc.executes? = some f →
    (s.workers w).pc.executes? = some f → v = w
  asserts : ∀ w e, (s.workers w).pc ≠ .aborted .swapIn e

/-- In a run whose dequeues never take a fiber that another worker owns, a fiber has
one executor at a time and `swapIn` never fails. -/
theorem run_swapSafe (tid : ι → Int) {s : Scheduler ι κ} (actions : List (Action ι κ))
    (unshared : Lib.Run.Along (step tid) (Unshared tid) initial actions)
    (ran : Lib.Run.exec (step tid) initial actions = some s) : s.SwapSafe := by
  have exclusive := exclusive_preserved.run initial_exclusive unshared ran
  refine ⟨?_, exclusive.asserts⟩
  intro v w f first second
  exact exclusive.unique v w f (.inl (Pc.fiber?_of_executes? first))
    (.inl (Pc.fiber?_of_executes? second))

/-- A fiber scheduled twice is yielded `READY` by the first worker and, once that one has
put it back, taken and executed by the second. -/
theorem run_swapSafe_yield_ready :
    ∃ s : Scheduler (Fin 2) Unit, (s.workers 1).pc.executes? = some 0 ∧ s.SwapSafe := by
  refine ⟨_, ?_, run_swapSafe (fun w => (w.val : Int)) [.create, .begin 0, .begin 1,
    .schedule (some (.fiber 0)) (-1), .dequeue 0, .advance 0, .advance 0, .advance 0,
    .schedule (some (.fiber 0)) (-1), .leave 0 .yieldToReady, .advance 0, .advance 0, .advance 0,
    .advance 0, .dequeue 1, .advance 1, .advance 1, .advance 1] (by decide) rfl⟩
  rfl

/-- Two entries for one fiber: both workers dequeue it before either has set `EXEC`. If
both pass the assertion both execute the fiber; if one is ahead the other's fails. -/
theorem two_entries_one_fiber :
    (∃ s : Scheduler (Fin 2) Unit, Reachable (fun w => (w.val : Int)) s ∧
      (s.workers 0).pc.executes? = some 0 ∧ (s.workers 1).pc.executes? = some 0) ∧
    ∃ s : Scheduler (Fin 2) Unit, Reachable (fun w => (w.val : Int)) s ∧
      ∃ e, (s.workers 1).pc = .aborted .swapIn e := by
  constructor
  · exact ⟨_, ⟨[.create, .begin 0, .begin 1, .schedule (some (.fiber 0)) (-1),
      .schedule (some (.fiber 0)) (-1), .dequeue 0, .dequeue 1, .advance 0, .advance 1,
      .advance 0, .advance 1, .advance 0, .advance 1], rfl⟩, rfl, rfl⟩
  · exact ⟨_, ⟨[.create, .begin 0, .begin 1, .schedule (some (.fiber 0)) (-1),
      .schedule (some (.fiber 0)) (-1), .dequeue 0, .dequeue 1, .advance 0, .advance 1,
      .advance 0, .advance 0, .advance 1], rfl⟩, ⟨.fiber 0, -1, 1⟩, rfl⟩

end Scheduler

end Dwframe
