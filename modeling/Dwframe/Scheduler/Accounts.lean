import Dwframe.Scheduler.Moves
import Dwframe.Lib.Tally
import Mathlib.Data.Multiset.Range
import Mathlib.Data.Multiset.Count
import Mathlib.Algebra.BigOperators.Ring.Finset
import Mathlib.Algebra.Order.BigOperators.Group.Finset

/-!
# Where the entries are

`Pc.ticket` is the entry a worker has in hand, `Pc.active` says that the worker is
between its dequeue and the matching decrement. Every step moves at most one entry
between the queue, a hand and the pile of finished ones, and changes the counter with
the hand. The invariant is stated with multisets of tickets and sums over the workers.
-/
namespace Dwframe

open Lib.Tally

variable {ι κ : Type}

namespace Pc

/-- The number of the entry in hand. -/
def ticket : Pc κ → Option Nat
  | dispatch e => some e.ticket
  | task _ e _ => some e.ticket
  | discard e => some e.ticket
  | aborted _ e => some e.ticket
  | _ => none

/-- Between `++m_activeThreadCount` and `--m_activeThreadCount`. -/
def active : Pc κ → Bool
  | dispatch _ => true
  | task .enter _ _ => true
  | task .swap _ _ => true
  | task .running _ _ => true
  | task .leaving _ _ => true
  | task .returned _ _ => true
  | discard _ => true
  | aborted _ _ => true
  | _ => false

end Pc

/-- The shares of one worker in the two sums. -/
def Worker.hand (worker : Worker κ) : Multiset Nat := (worker.pc.ticket.toList : Multiset Nat)

def Worker.load (worker : Worker κ) : Int := if worker.pc.active then 1 else 0

/-- A move drops an entry only by finishing it and counts only when it enters or leaves
the active part. -/
structure Move.Fair (move : Move κ) (worker : Worker κ) : Prop where
  hand : move.worker.hand + (move.finish.toList : Multiset Nat) = worker.hand
  load : move.worker.load = worker.load + move.count

namespace Scheduler

theorem Moves.fair {s : Scheduler ι κ} {worker : Worker κ} {move : Move κ}
    (moves : Moves s worker move) : move.Fair worker := by
  -- the constructor names both program counters, which fixes the two shares
  cases moves <;>
    constructor <;> simp [Worker.hand, Worker.load, Pc.ticket, Pc.active, *]

theorem leaveMove_fair {worker : Worker κ} {e : Entry κ} {f : Nat} (how : Leave)
    (pc : worker.pc = .task .running e f) : (leaveMove worker e f how).Fair worker := by
  constructor <;> simp [leaveMove, Worker.hand, Worker.load, Pc.ticket, Pc.active, pc]

/-- The tickets in the queue, taken from it, and done with. -/
def queued (s : Scheduler ι κ) : Multiset Nat := (s.fibers.map Entry.ticket : Multiset Nat)

def taken (s : Scheduler ι κ) : Multiset Nat :=
  (s.dequeued.map fun d => d.2.ticket : Multiset Nat)

variable [Fintype ι]

structure Accounts (tid : ι → Int) (s : Scheduler ι κ) : Prop where
  issued : s.queued + s.taken = Multiset.range s.tickets
  placed : s.taken = ∑ w, (s.workers w).hand + (s.finished : Multiset Nat)
  count : s.activeThreadCount = ∑ w, (s.workers w).load
  pinned : ∀ d ∈ s.dequeued, d.2.thread = -1 ∨ d.2.thread = tid d.1

variable {tid : ι → Int} {s : Scheduler ι κ}

theorem initial_accounts [DecidableEq ι] : Accounts tid (initial : Scheduler ι κ) where
  issued := rfl
  placed := by simp [initial, taken, Worker.hand, Pc.ticket]
  count := by simp [initial, Worker.load, Pc.active]
  pinned := by simp [initial]

omit [Fintype ι] in
theorem queued_scheduleNolock (s : Scheduler ι κ) (task : Task Nat κ) (thread : Int) :
    (s.scheduleNolock (some task) thread).queued = s.queued + {s.tickets} := by
  simp only [queued, scheduleNolock_fibers, Option.map_some, Option.toList_some, List.map_append,
    List.map_singleton, ← Multiset.coe_add, Multiset.coe_singleton]

/-- Pushing an entry issues the next ticket. -/
theorem scheduleNolock_accounts (accounts : Accounts tid s) (task : Option (Task Nat κ))
    (thread : Int) : Accounts tid (s.scheduleNolock task thread) := by
  constructor
  · cases task with
    | none => exact accounts.issued
    | some task =>
      rw [queued_scheduleNolock, taken, scheduleNolock_dequeued, scheduleNolock_tickets,
        Option.toList_some, List.length_singleton, Multiset.range_succ, ← accounts.issued, taken,
        ← Multiset.singleton_add]
      abel
  · simpa [taken] using accounts.placed
  · simpa using accounts.count
  · simpa using accounts.pinned

variable [DecidableEq ι]

/-- A worker that gives up `finish` lets the rest of the hands as they are. -/
private theorem sum_hand {w : ι} {worker : Worker κ} {finish : Multiset Nat}
    (hand : worker.hand + finish = (s.workers w).hand) :
    ∑ v, (Function.update s.workers w worker v).hand + finish = ∑ v, (s.workers v).hand := by
  have exchanged := sum_update Worker.hand s.workers w worker
  rw [← hand, add_comm worker.hand, ← add_assoc] at exchanged
  exact add_right_cancel exchanged

private theorem sum_load {w : ι} {worker : Worker κ} {count : Int}
    (load : worker.load = (s.workers w).load + count) :
    ∑ v, (Function.update s.workers w worker v).load = ∑ v, (s.workers v).load + count := by
  have exchanged := sum_update Worker.load s.workers w worker
  omega

theorem perform_accounts (accounts : Accounts tid s) {w : ι} {move : Move κ}
    (fair : move.Fair (s.workers w)) : Accounts tid (s.perform w move) := by
  -- the push comes last; what precedes it leaves the queue alone
  refine scheduleNolock_accounts ⟨?_, ?_, ?_, ?_⟩ _ _
  · simpa [queued, taken, setWorker] using accounts.issued
  · have placed := accounts.placed
    rw [taken, ← sum_hand fair.hand] at placed
    simp only [taken, writeState_dequeued, writeState_workers, writeState_finished, setWorker,
      ← Multiset.coe_add]
    rw [placed]
    abel
  · have counted := sum_load fair.load
    simp only [writeState_workers, writeState_activeThreadCount, setWorker]
    rw [counted, accounts.count]
  · simpa [setWorker] using accounts.pinned

/-- A step that changes neither hand nor load of its worker. -/
theorem setWorker_accounts (accounts : Accounts tid s) {w : ι} {worker : Worker κ}
    (hand : worker.hand = (s.workers w).hand) (load : worker.load = (s.workers w).load) :
    Accounts tid (s.setWorker w worker) := by
  refine ⟨accounts.issued, ?_, ?_, accounts.pinned⟩
  · have kept := sum_hand ((add_zero _).trans hand)
    rw [add_zero] at kept
    rw [Scheduler.setWorker, kept]
    exact accounts.placed
  · have counted := sum_load (load.trans (add_zero _).symm)
    rw [Scheduler.setWorker, counted, add_zero]
    exact accounts.count

theorem dequeue_accounts (accounts : Accounts tid s) {w : ι} (pc : (s.workers w).pc = .top) :
    Accounts tid (s.dequeue (tid w) w) := by
  unfold Scheduler.dequeue
  split
  next =>
    exact setWorker_accounts accounts (by simp [Worker.hand, Pc.ticket, pc])
      (by simp [Worker.load, Pc.active, pc])
  next e found =>
    -- the entry goes from the queue into the hand of the worker, which was empty
    have split := perm_cons_eraseP found
    have entry : s.queued = e.ticket ::ₘ (s.fibers.eraseP (s.eligible (tid w))).map Entry.ticket :=
      Multiset.coe_eq_coe.mpr (split.map Entry.ticket)
    set taker : Worker κ := { s.workers w with pc := .dispatch e }
    have hand : ∑ v, (Function.update s.workers w taker v).hand =
        ∑ v, (s.workers v).hand + {e.ticket} := by
      have exchanged := sum_update Worker.hand s.workers w taker
      have empty : (s.workers w).hand = 0 := by simp [Worker.hand, Pc.ticket, pc]
      rw [empty, add_zero] at exchanged
      exact exchanged
    have load : taker.load = (s.workers w).load + 1 := by
      simp [taker, Worker.load, Pc.active, pc]
    have log : ((s.dequeued ++ [(w, e)]).map fun d => d.2.ticket : Multiset Nat) =
        s.taken + {e.ticket} := by
      simp [taken, ← Multiset.coe_add]
    constructor
    · change (((s.fibers.eraseP (s.eligible (tid w))).map Entry.ticket : List Nat) : Multiset Nat) +
        ((s.dequeued ++ [(w, e)]).map fun d => d.2.ticket : Multiset Nat) = Multiset.range s.tickets
      rw [log, ← accounts.issued, entry, ← Multiset.singleton_add]
      abel
    · change ((s.dequeued ++ [(w, e)]).map fun d => d.2.ticket : Multiset Nat) =
        ∑ v, (Function.update s.workers w taker v).hand + (s.finished : Multiset Nat)
      rw [log, hand, accounts.placed]
      abel
    · change s.activeThreadCount + 1 = ∑ v, (Function.update s.workers w taker v).load
      rw [sum_load load, accounts.count]
    · intro d member
      rcases List.mem_append.mp member with old | new
      · exact accounts.pinned d old
      · rw [List.mem_singleton.mp new]
        have picked := List.find?_some found
        simp only [eligible, Bool.and_eq_true, Bool.or_eq_true, beq_iff_eq] at picked
        exact picked.1

theorem accounts_preserved : Preserved tid (fun _ _ => True) (Accounts (κ := κ) tid) where
  create s accounts := by
    constructor
    · simpa [queued, taken] using accounts.issued
    · simpa [taken] using accounts.placed
    · simpa using accounts.count
    · simpa using accounts.pinned
  schedule s task thread accounts _ := scheduleNolock_accounts accounts task thread
  flags s _ _ _ accounts := ⟨accounts.issued, accounts.placed, accounts.count, accounts.pinned⟩
  start s w accounts pc :=
    setWorker_accounts accounts (by simp [Worker.hand, Pc.ticket, pc])
      (by simp [Worker.load, Pc.active, pc])
  dequeue s w accounts _ pc := dequeue_accounts accounts pc
  leave s w how e f accounts _ pc := perform_accounts accounts (leaveMove_fair how pc)
  advance s w move accounts _ moves := perform_accounts accounts moves.fair

/-! ### What the invariant says entry by entry -/

/-- Worker `w` has entry number `t` in hand. -/
def Holds (s : Scheduler ι κ) (w : ι) (t : Nat) : Prop := (s.workers w).pc.ticket = some t

instance (s : Scheduler ι κ) (w : ι) (t : Nat) : Decidable (s.Holds w t) :=
  inferInstanceAs (Decidable (_ = _))

/-- Entry number `t` is in exactly one place, and there once. -/
structure OnePlace (s : Scheduler ι κ) (t : Nat) : Prop where
  somewhere : t ∈ s.fibers.map Entry.ticket ∨ (∃ w, s.Holds w t) ∨ t ∈ s.finished
  queued_once : (s.fibers.map Entry.ticket).count t ≤ 1
  finished_once : s.finished.count t ≤ 1
  one_holder : ∀ v w, s.Holds v t → s.Holds w t → v = w
  not_queued_and_held : t ∈ s.fibers.map Entry.ticket → ∀ w, ¬s.Holds w t
  not_queued_and_finished : t ∈ s.fibers.map Entry.ticket → t ∉ s.finished
  not_held_and_finished : ∀ w, s.Holds w t → t ∉ s.finished

omit [Fintype ι] [DecidableEq ι] in
theorem count_hand (s : Scheduler ι κ) (w : ι) (t : Nat) :
    (s.workers w).hand.count t = if s.Holds w t then 1 else 0 := by
  rw [Worker.hand, Multiset.coe_count]
  split
  next holds =>
    rw [holds, Option.toList_some, List.count_singleton_self]
  next differs =>
    exact List.count_eq_zero.mpr fun member => differs (Option.mem_toList.mp member)

omit [DecidableEq ι] in
/-- The places of an entry, counted. -/
theorem Accounts.places (accounts : Accounts tid s) {t : Nat} (issued : t < s.tickets) :
    (s.fibers.map Entry.ticket).count t + ∑ w, (s.workers w).hand.count t +
      s.finished.count t = 1 := by
  have one := congrArg (Multiset.count t) accounts.issued
  rw [accounts.placed, queued, Multiset.count_add, Multiset.count_add, Multiset.count_sum',
    Multiset.coe_count, Multiset.coe_count, Multiset.count_eq_one_of_mem (Multiset.nodup_range _)
      (Multiset.mem_range.mpr issued)] at one
  omega

omit [DecidableEq ι] in
theorem Holds.le_sum {w : ι} {t : Nat} (holds : s.Holds w t) :
    1 ≤ ∑ v, (s.workers v).hand.count t := by
  have share := Finset.single_le_sum (f := fun v => (s.workers v).hand.count t)
    (fun _ _ => Nat.zero_le _) (Finset.mem_univ w)
  rwa [count_hand, if_pos holds] at share

omit [DecidableEq ι] in
theorem Accounts.onePlace (accounts : Accounts tid s) {t : Nat} (issued : t < s.tickets) :
    s.OnePlace t := by
  classical
  -- one place in all: an entry in two of them would be counted twice
  have places := accounts.places issued
  refine ⟨?_, by omega, by omega, ?_, ?_, ?_, ?_⟩
  · by_contra nowhere
    rw [not_or, not_or] at nowhere
    obtain ⟨notQueued, notHeld, notFinished⟩ := nowhere
    have noShare : ∀ w ∈ Finset.univ, (s.workers w).hand.count t = 0 := by
      intro w _
      rw [count_hand, if_neg fun holds => notHeld ⟨w, holds⟩]
    rw [List.count_eq_zero.mpr notQueued, List.count_eq_zero.mpr notFinished,
      Finset.sum_eq_zero noShare] at places
    cases places
  · intro v w first second
    by_contra differ
    have share : ∑ u ∈ ({v, w} : Finset ι), (s.workers u).hand.count t = 2 := by
      rw [Finset.sum_pair differ, count_hand, count_hand, if_pos first, if_pos second]
    have sub := Finset.sum_le_sum_of_subset (f := fun u => (s.workers u).hand.count t)
      (Finset.subset_univ ({v, w} : Finset ι))
    omega
  · intro inQueue w holds
    have once := List.count_pos_iff.mpr inQueue
    have share := holds.le_sum
    omega
  · intro inQueue done
    have once := List.count_pos_iff.mpr inQueue
    have again := List.count_pos_iff.mpr done
    omega
  · intro w holds done
    have again := List.count_pos_iff.mpr done
    have share := holds.le_sum
    omega

/-- The bookkeeping of the queue in one state. -/
structure Accounted (tid : ι → Int) (s : Scheduler ι κ) : Prop where
  /-- Every entry ever pushed is in exactly one place. -/
  onePlace : ∀ t < s.tickets, s.OnePlace t
  /-- Only entries that were pushed are anywhere. -/
  pushed : ∀ t, t ∈ s.fibers.map Entry.ticket ∨ (∃ w, s.Holds w t) ∨ t ∈ s.finished → t < s.tickets
  /-- An entry is dequeued once at most, and no longer queued then. -/
  dequeued_once : (s.dequeued.map fun d => d.2.ticket).Nodup
  dequeued_iff : ∀ t < s.tickets,
    t ∈ (s.dequeued.map fun d => d.2.ticket) ↔ t ∉ s.fibers.map Entry.ticket
  /-- A pinned entry is dequeued by its thread. -/
  pinned : ∀ d ∈ s.dequeued, d.2.thread = -1 ∨ d.2.thread = tid d.1
  /-- The counter is the number of workers between dequeue and decrement. -/
  count : s.activeThreadCount = (Finset.univ.filter fun w => (s.workers w).pc.active).card

omit [DecidableEq ι] in
theorem Accounts.accounted (accounts : Accounts tid s) : s.Accounted tid := by
  have issued := accounts.issued
  have distinct : (s.queued + s.taken).Nodup := by
    rw [issued]
    exact Multiset.nodup_range _
  refine ⟨fun t => accounts.onePlace, ?_, ?_, ?_, accounts.pinned, ?_⟩
  · intro t place
    rw [← Multiset.mem_range, ← issued, accounts.placed, Multiset.mem_add, Multiset.mem_add,
      Multiset.mem_sum]
    rcases place with inQueue | ⟨w, holds⟩ | done
    · exact .inl inQueue
    · refine .inr (.inl ⟨w, Finset.mem_univ w, ?_⟩)
      rw [← Multiset.count_pos, count_hand, if_pos holds]
      exact Nat.one_pos
    · exact .inr (.inr done)
  · exact Multiset.coe_nodup.mp (Multiset.nodup_add.mp distinct).2.1
  · intro t below
    -- the queue and the log of dequeues split the tickets issued so far
    have apart := (Multiset.nodup_add.mp distinct).2.2
    have member : t ∈ s.queued + s.taken := by
      rw [issued]
      exact Multiset.mem_range.mpr below
    constructor
    · intro taken inQueue
      exact Multiset.disjoint_left.mp apart inQueue taken
    · intro notQueued
      exact (Multiset.mem_add.mp member).resolve_left notQueued
  · rw [accounts.count, Finset.card_filter, Nat.cast_sum]
    refine Finset.sum_congr rfl fun w _ => ?_
    rw [Worker.load]
    split <;> rfl

end Scheduler

end Dwframe
