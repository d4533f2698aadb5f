import Dwframe.Scheduler.Accounts

/-!
# What `stopping()` knows

`stopping()` looks at the queue and at `m_activeThreadCount`. The counter covers a worker
from its dequeue to its decrement, so a positive answer means that no worker is there.
It does not cover the way from the decrement to the `schedule()` of a fiber that
yielded `READY`: there the task is in nobody's account.
-/
namespace Dwframe.Scheduler

variable {ι κ : Type}

/-- After the decrement, on the way to `schedule()` of a `READY` fiber. -/
def RequeuePending (s : Scheduler ι κ) (w : ι) : Prop :=
  ∃ e f, (s.workers w).pc = .task .requeue e f ∨
    ((s.workers w).pc = .task .settle e f ∧ s.state f = .ready)

/-- No unfinished task: none queued, none between dequeue and decrement, none about to be
put back. -/
structure Quiet (s : Scheduler ι κ) : Prop where
  queue : s.fibers = []
  hands : ∀ w, (s.workers w).pc.active = false
  requeue : ∀ w, ¬s.RequeuePending w

variable [Fintype ι] {tid : ι → Int} {s : Scheduler ι κ}

theorem Accounts.idle_of_stopping (accounts : Accounts tid s) (stops : s.stopping = true) :
    s.fibers = [] ∧ ∀ w, (s.workers w).pc.active = false := by
  simp only [stopping, Bool.and_eq_true, List.isEmpty_iff, beq_iff_eq] at stops
  obtain ⟨⟨-, empty⟩, zero⟩ := stops
  refine ⟨empty, fun w => ?_⟩
  by_contra busy
  -- a busy worker would be counted, and the counter is zero
  have counted := accounts.accounted.count
  rw [zero] at counted
  have none : (Finset.univ.filter fun v => (s.workers v).pc.active = true) = ∅ :=
    Finset.card_eq_zero.mp (by omega)
  have member : w ∈ Finset.univ.filter fun v => (s.workers v).pc.active = true := by
    simpa using busy
  rw [none] at member
  cases member

/-! ### Runs without `YieldToReady` -/

/-- No fiber is `READY` and no worker took one for it. -/
structure NeverReady (s : Scheduler ι κ) : Prop where
  state : ∀ f, s.state f ≠ .ready
  pc : ∀ w e f, (s.workers w).pc ≠ .task .requeue e f

omit [Fintype ι] in
theorem writeState_ne_ready {write : Option (Nat × FiberState)} (before : ∀ f, s.state f ≠ .ready)
    (value : ∀ f v, write = some (f, v) → v ≠ .ready) (f : Nat) :
    (s.writeState write).state f ≠ .ready := by
  cases write with
  | none => exact before f
  | some write =>
    obtain ⟨g, v⟩ := write
    change Function.update s.state g v f ≠ .ready
    by_cases same : f = g
    · rw [same, Function.update_self]
      exact value g v rfl
    · rw [Function.update_of_ne same]
      exact before f

variable [DecidableEq ι]

omit [Fintype ι] in
/-- Replacing a worker by one that has not taken a fiber for `READY`. -/
private theorem NeverReady.update (never : s.NeverReady) (w : ι) {worker : Worker κ}
    (pc : ∀ e f, worker.pc ≠ .task .requeue e f) :
    ∀ v e f, (Function.update s.workers w worker v).pc ≠ .task .requeue e f :=
  (Function.forall_update_iff s.workers fun _ u => ∀ e f, u.pc ≠ .task .requeue e f).mpr
    ⟨pc, fun v _ => never.pc v⟩

omit [Fintype ι] in
private theorem perform_neverReady (never : s.NeverReady) {w : ι} {move : Move κ}
    (value : ∀ f v, move.write = some (f, v) → v ≠ .ready)
    (pc : ∀ e f, move.worker.pc ≠ .task .requeue e f) : (s.perform w move).NeverReady := by
  refine ⟨fun f => ?_, ?_⟩
  · rw [perform_state]
    exact writeState_ne_ready never.state value f
  · rw [perform_workers]
    exact never.update w pc

omit [Fintype ι] in
theorem neverReady_preserved :
    Preserved tid (fun _ a => ∀ w, a ≠ .leave w .yieldToReady) (NeverReady (ι := ι) (κ := κ)) where
  create s never := by
    refine ⟨fun f => ?_, never.pc⟩
    have fresh : ∀ g v, some (s.fiberCount, FiberState.init) = some (g, v) → v ≠ .ready := by
      rintro _ _ ⟨⟩
      decide
    exact writeState_ne_ready never.state fresh f
  schedule s task thread never _ := ⟨by simpa using never.state, by simpa using never.pc⟩
  flags s _ _ _ never := ⟨never.state, never.pc⟩
  start s w never _ := ⟨never.state, never.update w (by simp)⟩
  dequeue s w never _ _ := by
    unfold Scheduler.dequeue
    split
    · exact ⟨never.state, never.update w (by simp)⟩
    · exact ⟨never.state, never.update w (by simp)⟩
  leave s w how e f never allowed _ := by
    refine perform_neverReady never ?_ (by simp [leaveMove])
    intro g v written
    cases how with
    | yieldToReady => exact absurd rfl (allowed w)
    | yieldToHold => cases written
    | returns => cases written; decide
    | throws => cases written; decide
  advance s w move never _ moves := by
    apply perform_neverReady never
    · intro f v written
      cases moves with
      | reuse => cases written; decide
      | allocate => cases written; decide
      | swapIn => cases written; decide
      | retire pc dead =>
        rw [Option.ite_none_right_eq_some] at written
        cases written.2
        decide
      | park => cases written; decide
      | _ => cases written
    · intro e f eq
      cases moves with
      -- the only way to `requeue` is through a state that was read as `READY`
      | sawReady pc ready => exact never.state _ ready
      | _ => cases eq

omit [Fintype ι] [DecidableEq ι] in
theorem NeverReady.not_pending (never : s.NeverReady) (w : ι) : ¬s.RequeuePending w := by
  rintro ⟨e, f, pc | ⟨-, ready⟩⟩
  · exact never.pc w e f pc
  · exact never.state f ready

/-- In every state where `stopping()` is true there is no unfinished task exactly when no
worker is between its decrement and the `schedule()` of a `READY` fiber; a run in which
no fiber yields `READY` has no such worker. -/
theorem stopping_quiet_iff (tid : ι → Int) (actions : List (Action ι κ))
    (ran : Lib.Run.exec (step tid) initial actions = some s) (stops : s.stopping = true) :
    (s.Quiet ↔ ∀ w, ¬s.RequeuePending w) ∧
      ((∀ w, Action.leave w .yieldToReady ∉ actions) → s.Quiet) := by
  have accounts := accounts_preserved.reachable initial_accounts ⟨actions, ran⟩
  obtain ⟨empty, idle⟩ := accounts.idle_of_stopping stops
  refine ⟨⟨Quiet.requeue, fun clear => ⟨empty, idle, clear⟩⟩, fun absent => ?_⟩
  have along : Lib.Run.Along (step tid) (fun _ a => ∀ w, a ≠ Action.leave w .yieldToReady)
      (initial : Scheduler ι κ) actions :=
    Lib.Run.along_of_forall initial fun a member w eq => absent w (eq ▸ member)
  have never : s.NeverReady :=
    neverReady_preserved.run ⟨by simp [initial], by simp [initial]⟩ along ran
  exact ⟨empty, idle, never.not_pending⟩

/-- A callback has run to its end and the scheduler is told to stop. -/
theorem stopping_quiet_iff_after_callback :
    ∃ s : Scheduler (Fin 2) Unit, s.stopping = true ∧ (s.Quiet ↔ ∀ w, ¬s.RequeuePending w) ∧
      ((∀ w, Action.leave w .yieldToReady ∉ ([.begin 0, .begin 1, .schedule (some (.cb ())) (-1),
        .dequeue 0, .advance 0, .advance 0, .advance 0, .leave 0 .returns, .advance 0, .advance 0,
        .setFlags true true] : List (Action (Fin 2) Unit))) → s.Quiet) :=
  ⟨_, rfl, stopping_quiet_iff (fun w => (w.val : Int)) _ rfl rfl⟩

/-- A fiber yields `READY`; its worker has decremented the counter and not yet put the
fiber back. -/
theorem stopping_before_requeue :
    ∃ s : Scheduler (Fin 2) Unit, Reachable (fun w => (w.val : Int)) s ∧ s.stopping = true ∧
      s.RequeuePending 0 :=
  ⟨_, ⟨[.create, .begin 0, .begin 1, .schedule (some (.fiber 0)) (-1), .dequeue 0, .advance 0,
    .advance 0, .advance 0, .leave 0 .yieldToReady, .setFlags true true, .advance 0,
    .advance 0], rfl⟩, rfl, ⟨.fiber 0, -1, 0⟩, 0, .inr ⟨rfl, rfl⟩⟩

end Dwframe.Scheduler
