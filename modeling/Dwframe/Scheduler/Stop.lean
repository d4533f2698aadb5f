import Dwframe.Scheduler.Moves
import Mathlib.Data.Fintype.Card

/-!
# `Scheduler::stop`

The threads `ι` that `start()` created run next to one call of `stop()`. With
`use_caller` the scheduler has a root fiber, worker `none`, which `stop()` enters in its
own thread. `stop()` joins the threads at its end, but a positive `stopping()` just
before returns without the joins.
-/
namespace Dwframe

/-- Where the call of `stop()` is. -/
inductive StopPc where
  | notCalled
  /-- `m_autoStop` is set; before the test of the root fiber and the thread count. -/
  | rootTest
  /-- In the branch without threads, before its `stopping()`. -/
  | firstTest
  /-- Before `m_stoping = true`. -/
  | raise
  /-- Before `if(m_rootFiber) if(!stopping())`. -/
  | callTest
  /-- In `m_rootFiber->call()`. -/
  | inRoot
  /-- Before the `stopping()` that precedes the joins. -/
  | secondTest
  | joining
  | returned
  deriving DecidableEq, Repr

def Pc.isExited {κ : Type} : Pc κ → Bool
  | exited => true
  | _ => false

theorem Pc.eq_exited {κ : Type} {pc : Pc κ} (out : pc.isExited = true) : pc = .exited := by
  cases pc <;> first | rfl | cases out

structure StopSystem (ι κ : Type) where
  scheduler : Scheduler (Option ι) κ
  stop : StopPc

inductive StopAction (ι κ : Type) where
  | scheduler (a : Action (Option ι) κ)
  | stop

namespace StopSystem

variable {ι κ : Type} [Fintype ι] [DecidableEq ι]

/-- After `start()`: the threads exist and have not entered `run` yet. -/
def started : StopSystem ι κ where
  scheduler := { Scheduler.initial with stoping := false }
  stop := .notCalled

/-- The state of `m_rootFiber` is `TERM` or `INIT`. -/
def rootIdle (s : StopSystem ι κ) : Bool :=
  match (s.scheduler.workers none).pc with
  | .unstarted => true
  | pc => pc.isExited

/-- Every thread of `start()` has left `run`. -/
def AllExited (s : StopSystem ι κ) : Prop := ∀ i, (s.scheduler.workers (some i)).pc = .exited

/-- `join()` returns for every thread. -/
def joinable (s : StopSystem ι κ) : Bool :=
  decide (∀ i, (s.scheduler.workers (some i)).pc.isExited = true)

variable (tid : Option ι → Int) (useCaller : Bool)

def stopStep (s : StopSystem ι κ) : Option (StopSystem ι κ) :=
  match s.stop with
  | .notCalled => some { scheduler := { s.scheduler with autoStop := true }, stop := .rootTest }
  | .rootTest =>
    if useCaller && Fintype.card ι == 0 && s.rootIdle then
      some { scheduler := { s.scheduler with stoping := true }, stop := .firstTest }
    else some { s with stop := .raise }
  | .firstTest =>
    if s.scheduler.virtualStopping then some { s with stop := .returned }
    else some { s with stop := .raise }
  | .raise => some { scheduler := { s.scheduler with stoping := true }, stop := .callTest }
  -- with `use_caller` the calling thread works the queue off itself
  | .callTest =>
    if useCaller && !s.scheduler.virtualStopping then
      (s.scheduler.step tid (.begin none)).map fun scheduler => ⟨scheduler, .inRoot⟩
    else some { s with stop := .secondTest }
  | .inRoot =>
    if (s.scheduler.workers none).pc.isExited then some { s with stop := .secondTest } else none
  | .secondTest =>
    -- this return comes before the joins
    if s.scheduler.virtualStopping then some { s with stop := .returned }
    else some { s with stop := .joining }
  | .joining => if s.joinable then some { s with stop := .returned } else none
  | .returned => none

/-- Steps of the workers and of their environment; the flags and the start of the root
fiber belong to `stop()`. -/
def others : Action (Option ι) κ → Bool
  | .setFlags .. => false
  | .begin none => false
  | _ => true

def step (s : StopSystem ι κ) : StopAction ι κ → Option (StopSystem ι κ)
  | .stop => s.stopStep tid useCaller
  | .scheduler a =>
    if others a then (s.scheduler.step tid a).map fun scheduler => { s with scheduler := scheduler }
    else none

/-- `stop()` does not leave through the `stopping()` test before the joins while there
are threads. -/
def NoEarlyReturn (s : StopSystem ι κ) : StopAction ι κ → Prop
  | .stop => s.stop = .secondTest → Fintype.card ι = 0 ∨ s.scheduler.virtualStopping = false
  | .scheduler _ => True

variable {tid useCaller}

omit [Fintype ι] in
/-- A worker that has left `run` stays out. -/
theorem exited_preserved (w : Option ι) :
    Scheduler.Preserved tid (fun _ _ => True)
      (fun s : Scheduler (Option ι) κ => (s.workers w).pc = .exited) := by
  -- a step changes one worker, and never one that has left
  have keep : ∀ (s : Scheduler (Option ι) κ) v (worker : Worker κ), (s.workers w).pc = .exited →
      (s.workers v).pc ≠ .exited → (Function.update s.workers v worker w).pc = .exited := by
    intro s v worker out differs
    have other : w ≠ v := fun same => differs (same ▸ out)
    rw [Function.update_of_ne other]
    exact out
  refine ⟨fun _ out => out, ?_, fun _ _ _ _ out => out, ?_, ?_, ?_, ?_⟩
  · intro s task thread out _
    simpa using out
  · intro s v out pc
    exact keep s v _ out (by simp [pc])
  · intro s v out _ pc
    unfold Scheduler.dequeue
    split
    · exact keep s v _ out (by simp [pc])
    · exact keep s v _ out (by simp [pc])
  · intro s v how e f out _ pc
    rw [Scheduler.perform_workers]
    exact keep s v _ out (by simp [pc])
  · intro s v move out _ moves
    rw [Scheduler.perform_workers]
    apply keep s v _ out
    cases moves <;> simp [*]

/-- The first `stopping()` test is only reached without threads, and once `stop()` has
returned the threads are out of `run`. -/
structure Joins (s : StopSystem ι κ) : Prop where
  firstTest : s.stop = .firstTest → Fintype.card ι = 0
  returned : s.stop = .returned → s.AllExited

private theorem stopStep_joins {s s' : StopSystem ι κ} (joins : s.Joins)
    (late : s.NoEarlyReturn .stop) (stepped : s.stopStep tid useCaller = some s') : s'.Joins := by
  -- three ways for a step to be harmless: no threads, no return, or all threads out
  have noThreads : Fintype.card ι = 0 → s'.AllExited :=
    fun none i => absurd (Fintype.card_pos_iff.mpr ⟨i⟩) (by omega)
  have elsewhere : s'.stop ≠ .firstTest → s'.stop ≠ .returned → s'.Joins :=
    fun notFirst notReturned => ⟨(absurd · notFirst), (absurd · notReturned)⟩
  have out : s'.stop ≠ .firstTest → s'.AllExited → s'.Joins :=
    fun notFirst exited => ⟨(absurd · notFirst), fun _ => exited⟩
  unfold stopStep at stepped
  split at stepped
  next =>
    cases stepped
    exact elsewhere (by simp) (by simp)
  next =>
    split at stepped
    next few =>
      cases stepped
      refine ⟨fun _ => ?_, by simp⟩
      simp only [Bool.and_eq_true, beq_iff_eq] at few
      exact few.1.2
    next =>
      cases stepped
      exact elsewhere (by simp) (by simp)
  next pc =>
    split at stepped
    · cases stepped
      exact out (by simp) (noThreads (joins.firstTest pc))
    · cases stepped
      exact elsewhere (by simp) (by simp)
  next =>
    cases stepped
    exact elsewhere (by simp) (by simp)
  next =>
    split at stepped
    · obtain ⟨scheduler, -, rfl⟩ := Option.map_eq_some_iff.mp stepped
      exact elsewhere (by simp) (by simp)
    · cases stepped
      exact elsewhere (by simp) (by simp)
  next =>
    split at stepped
    · cases stepped
      exact elsewhere (by simp) (by simp)
    · cases stepped
  next pc =>
    split at stepped
    next stops =>
      cases stepped
      apply out (by simp)
      -- the early return: either there is nobody to join, or it was not taken
      rcases late pc with none | runs
      · exact noThreads none
      · rw [runs] at stops
        cases stops
    next =>
      cases stepped
      exact elsewhere (by simp) (by simp)
  next =>
    split at stepped
    next joined =>
      cases stepped
      exact out (by simp) fun i => Pc.eq_exited (of_decide_eq_true joined i)
    next => cases stepped
  next => cases stepped

private theorem step_joins {s s' : StopSystem ι κ} {a : StopAction ι κ} (joins : s.Joins)
    (late : s.NoEarlyReturn a) (stepped : s.step tid useCaller a = some s') : s'.Joins := by
  cases a with
  | stop => exact stopStep_joins joins late stepped
  | scheduler a =>
    simp only [step, Option.ite_none_right_eq_some, Option.map_eq_some_iff] at stepped
    obtain ⟨-, scheduler, stepped, rfl⟩ := stepped
    refine ⟨joins.firstTest, fun returned i => ?_⟩
    exact (exited_preserved (some i)).step (joins.returned returned i) trivial stepped

/-- If `stop()` never takes the early return with threads around, then in every
interleaving all threads have left `run` when it returns. -/
theorem run_joined (tid : Option ι → Int) (useCaller : Bool) {s : StopSystem ι κ}
    (actions : List (StopAction ι κ))
    (late : Lib.Run.Along (step tid useCaller) NoEarlyReturn started actions)
    (ran : Lib.Run.exec (step tid useCaller) started actions = some s)
    (returned : s.stop = .returned) : s.AllExited := by
  have initially : (started : StopSystem ι κ).Joins := ⟨by simp [started], by simp [started]⟩
  have joins := Lib.Run.exec_invariant Joins (fun _ _ _ => step_joins) initially late ran
  exact joins.returned returned

instance (s : StopSystem ι κ) : (a : StopAction ι κ) → Decidable (s.NoEarlyReturn a)
  | .stop => inferInstanceAs (Decidable (_ → _ ∨ _))
  | .scheduler _ => .isTrue trivial

/-- One thread with a task: `stop()` waits for the thread to run the task and leave. -/
theorem run_joined_one_task :
    ∃ s : StopSystem (Fin 1) Unit, s.stop = .returned ∧ s.AllExited :=
  ⟨_, rfl, run_joined (fun _ => 0) false
    [.scheduler (.begin (some 0)), .scheduler (.schedule (some (.cb ())) (-1)),
      .stop, .stop, .stop, .stop, .stop,
      .scheduler (.dequeue (some 0)), .scheduler (.advance (some 0)),
      .scheduler (.advance (some 0)), .scheduler (.advance (some 0)),
      .scheduler (.leave (some 0) .returns), .scheduler (.advance (some 0)),
      .scheduler (.advance (some 0)), .scheduler (.advance (some 0)),
      .scheduler (.advance (some 0)), .scheduler (.dequeue (some 0)),
      .scheduler (.advance (some 0)), .scheduler (.advance (some 0)),
      .scheduler (.dequeue (some 0)), .scheduler (.advance (some 0)), .stop]
    (by decide) rfl rfl⟩

/-- One thread and no task: `stop()` returns while the thread is in `run`. -/
theorem stop_returns_before_thread :
    ∃ s : StopSystem (Fin 1) Unit,
      Lib.Run.exec (step (fun _ => 0) false) started
        [.scheduler (.begin (some 0)), .stop, .stop, .stop, .stop, .stop] = some s ∧
      s.stop = .returned ∧ (s.scheduler.workers (some 0)).pc = .top :=
  ⟨_, rfl, rfl, rfl⟩

end StopSystem

end Dwframe
