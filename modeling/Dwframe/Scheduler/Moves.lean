import Dwframe.Scheduler.Model
import Mathlib.Tactic.Common

/-!
# Everything a step can do

`Moves` lists the moves of a worker, one constructor for each way through a branch of
`run`, with the reads that lead there; `moves_of_move` says that the list is complete. The
field lemmas say what performing a move does to each part of the scheduler.
-/
namespace Dwframe.Scheduler

variable {ι κ : Type}

/-- The moves of a worker in state `s`. -/
inductive Moves (s : Scheduler ι κ) (w : Worker κ) : Move κ → Prop
  | drop {e : Entry κ} {f : Nat} (pc : w.pc = .dispatch e) (task : e.task = .fiber f)
      (dead : (s.state f).isDead = true) : Moves s w { worker := { w with pc := .discard e } }
  | take {e : Entry κ} {f : Nat} (pc : w.pc = .dispatch e) (task : e.task = .fiber f)
      (alive : (s.state f).isDead = false) :
      Moves s w { worker := { w with pc := .task .enter e f } }
  | reuse {e : Entry κ} {c : κ} {f : Nat} (pc : w.pc = .dispatch e) (task : e.task = .cb c)
      (cached : w.cbFiber = some f)
      (idle : (s.state f).isDead = true ∨ s.state f = .init) :
      Moves s w { worker := { w with pc := .task .enter e f }, write := some (f, .init) }
  | reuseFails {e : Entry κ} {c : κ} {f : Nat} (pc : w.pc = .dispatch e) (task : e.task = .cb c)
      (cached : w.cbFiber = some f)
      (busy : ¬((s.state f).isDead = true ∨ s.state f = .init)) :
      Moves s w { worker := { w with pc := .aborted .reset e } }
  | allocate {e : Entry κ} {c : κ} (pc : w.pc = .dispatch e) (task : e.task = .cb c)
      (uncached : w.cbFiber = none) :
      Moves s w {
        worker := { w with pc := .task .enter e s.fiberCount, cbFiber := some s.fiberCount }
        write := some (s.fiberCount, .init)
        alloc := true }
  | enterFails {e : Entry κ} {f : Nat} (pc : w.pc = .task .enter e f) (exec : s.state f = .exec) :
      Moves s w { worker := { w with pc := .aborted .swapIn e } }
  | enter {e : Entry κ} {f : Nat} (pc : w.pc = .task .enter e f) (notExec : s.state f ≠ .exec) :
      Moves s w { worker := { w with pc := .task .swap e f } }
  | swapIn {e : Entry κ} {f : Nat} (pc : w.pc = .task .swap e f) :
      Moves s w { worker := { w with pc := .task .running e f }, write := some (f, .exec) }
  | swapOut {e : Entry κ} {f : Nat} (pc : w.pc = .task .leaving e f) :
      Moves s w { worker := { w with pc := .task .returned e f } }
  | decrement {e : Entry κ} {f : Nat} (pc : w.pc = .task .returned e f) :
      Moves s w { worker := { w with pc := .task .settle e f }, count := -1 }
  | sawReady {e : Entry κ} {f : Nat} (pc : w.pc = .task .settle e f) (ready : s.state f = .ready) :
      Moves s w { worker := { w with pc := .task .requeue e f } }
  | sawOther {e : Entry κ} {f : Nat} (pc : w.pc = .task .settle e f) (other : s.state f ≠ .ready) :
      Moves s w { worker := { w with pc := .task .retire e f } }
  | requeue {e : Entry κ} {f : Nat} (pc : w.pc = .task .requeue e f) :
      Moves s w {
        worker := { w with pc := .top, cbFiber := if e.isCb then none else w.cbFiber }
        push := some f
        finish := some e.ticket }
  | retire {e : Entry κ} {f : Nat} (pc : w.pc = .task .retire e f)
      (dead : (s.state f).isDead = true) :
      Moves s w {
        worker := { w with pc := .top }
        write := if e.isCb then some (f, .init) else none
        finish := some e.ticket }
  | keep {e : Entry κ} {f : Nat} (pc : w.pc = .task .retire e f)
      (alive : (s.state f).isDead = false) :
      Moves s w { worker := { w with pc := .task .park e f } }
  | park {e : Entry κ} {f : Nat} (pc : w.pc = .task .park e f) :
      Moves s w {
        worker := { w with pc := .top, cbFiber := if e.isCb then none else w.cbFiber }
        write := some (f, .hold)
        finish := some e.ticket }
  | discard {e : Entry κ} (pc : w.pc = .discard e) :
      Moves s w { worker := { w with pc := .top }, count := -1, finish := some e.ticket }
  | exit (pc : w.pc = .idleTest) (term : w.idleTerm = true) :
      Moves s w { worker := { w with pc := .exited } }
  | idle (pc : w.pc = .idleTest) (running : w.idleTerm = false) :
      Moves s w { worker := { w with pc := .idling } }
  | idled (pc : w.pc = .idling) :
      Moves s w { worker := { w with pc := .top, idleTerm := s.virtualStopping } }

variable {s : Scheduler ι κ} {w : Worker κ} {move : Move κ}

/-- A worker with an entry in hand, before the branches. -/
private theorem dispatch_moves {e : Entry κ} (pc : w.pc = .dispatch e)
    (moved : s.move w = some move) : Moves s w move := by
  -- the entry is a fiber or a callback; a callback has a cached fiber or needs a new one
  simp only [Scheduler.move, pc] at moved
  split at moved
  next f task =>
    split at moved
    next dead => cases moved; exact .drop pc task dead
    next alive => cases moved; exact .take pc task (by simpa using alive)
  next c task =>
    split at moved
    next f cached =>
      split at moved
      next idle => cases moved; exact .reuse pc task cached (by simpa using idle)
      next busy => cases moved; exact .reuseFails pc task cached (by simpa using busy)
    next uncached => cases moved; exact .allocate pc task uncached

private theorem task_moves {stage : Stage} {e : Entry κ} {f : Nat} (pc : w.pc = .task stage e f)
    (moved : s.move w = some move) : Moves s w move := by
  cases stage <;> simp only [Scheduler.move, pc] at moved
  case enter =>
    split at moved
    next exec => cases moved; exact .enterFails pc exec
    next notExec => cases moved; exact .enter pc notExec
  case swap => cases moved; exact .swapIn pc
  case running => cases moved
  case leaving => cases moved; exact .swapOut pc
  case returned => cases moved; exact .decrement pc
  case settle =>
    split at moved
    next ready => cases moved; exact .sawReady pc ready
    next other => cases moved; exact .sawOther pc other
  case requeue => cases moved; exact .requeue pc
  case retire =>
    split at moved
    next dead => cases moved; exact .retire pc dead
    next alive => cases moved; exact .keep pc (by simpa using alive)
  case park => cases moved; exact .park pc

theorem moves_of_move (moved : s.move w = some move) : Moves s w move := by
  cases pc : w.pc with
  | dispatch e => exact dispatch_moves pc moved
  | task stage e f => exact task_moves pc moved
  | discard e =>
    simp only [Scheduler.move, pc, Option.some.injEq] at moved
    subst moved
    exact .discard pc
  | idleTest =>
    simp only [Scheduler.move, pc] at moved
    split at moved
    next term => cases moved; exact .exit pc term
    next running => cases moved; exact .idle pc (by simpa using running)
  | idling =>
    simp only [Scheduler.move, pc, Option.some.injEq] at moved
    subst moved
    exact .idled pc
  | unstarted => simp [Scheduler.move, pc] at moved
  | top => simp [Scheduler.move, pc] at moved
  | exited => simp [Scheduler.move, pc] at moved
  | aborted assertion e => simp [Scheduler.move, pc] at moved

/-! ### The parts of the scheduler -/

section Fields

variable (s : Scheduler ι κ) (task : Option (Task Nat κ)) (thread : Int)

@[simp] theorem scheduleNolock_workers : (s.scheduleNolock task thread).workers = s.workers := by
  cases task <;> rfl

@[simp] theorem scheduleNolock_state : (s.scheduleNolock task thread).state = s.state := by
  cases task <;> rfl

@[simp] theorem scheduleNolock_fiberCount :
    (s.scheduleNolock task thread).fiberCount = s.fiberCount := by
  cases task <;> rfl

@[simp] theorem scheduleNolock_activeThreadCount :
    (s.scheduleNolock task thread).activeThreadCount = s.activeThreadCount := by
  cases task <;> rfl

@[simp] theorem scheduleNolock_finished : (s.scheduleNolock task thread).finished = s.finished := by
  cases task <;> rfl

@[simp] theorem scheduleNolock_dequeued : (s.scheduleNolock task thread).dequeued = s.dequeued := by
  cases task <;> rfl

theorem scheduleNolock_fibers : (s.scheduleNolock task thread).fibers =
    s.fibers ++ (task.map fun t => ({ task := t, thread := thread, ticket := s.tickets } :
      Entry κ)).toList := by
  cases task <;> simp [scheduleNolock]

theorem scheduleNolock_tickets :
    (s.scheduleNolock task thread).tickets = s.tickets + task.toList.length := by
  cases task <;> rfl

variable (write : Option (Nat × FiberState))

@[simp] theorem writeState_workers : (s.writeState write).workers = s.workers := by
  cases write <;> rfl

@[simp] theorem writeState_fibers : (s.writeState write).fibers = s.fibers := by
  cases write <;> rfl

@[simp] theorem writeState_fiberCount : (s.writeState write).fiberCount = s.fiberCount := by
  cases write <;> rfl

@[simp] theorem writeState_activeThreadCount :
    (s.writeState write).activeThreadCount = s.activeThreadCount := by
  cases write <;> rfl

@[simp] theorem writeState_finished : (s.writeState write).finished = s.finished := by
  cases write <;> rfl

@[simp] theorem writeState_dequeued : (s.writeState write).dequeued = s.dequeued := by
  cases write <;> rfl

@[simp] theorem writeState_tickets : (s.writeState write).tickets = s.tickets := by
  cases write <;> rfl

variable [DecidableEq ι] (w : ι) (move : Move κ)

@[simp] theorem perform_workers :
    (s.perform w move).workers = Function.update s.workers w move.worker := by
  simp [perform, setWorker]

theorem perform_state : (s.perform w move).state = (s.writeState move.write).state := by
  cases written : move.write <;> simp [perform, setWorker, written, writeState]

theorem perform_fibers : (s.perform w move).fibers =
    s.fibers ++ (move.push.map fun f => ({ task := .fiber f, thread := -1, ticket := s.tickets } :
      Entry κ)).toList := by
  cases pushed : move.push <;> simp [perform, scheduleNolock_fibers, setWorker, pushed]

@[simp] theorem perform_fiberCount : (s.perform w move).fiberCount =
    if move.alloc then s.fiberCount + 1 else s.fiberCount := by
  simp [perform, setWorker]

end Fields

/-! ### The invariant rule -/

section Rule

variable [DecidableEq ι]

/-- The switch out of a running fiber. -/
def leaveMove (worker : Worker κ) (e : Entry κ) (f : Nat) (how : Leave) : Move κ where
  worker := { worker with pc := .task .leaving e f }
  write := how.writes.map fun value => (f, value)

/-- The obligations for `inv` to survive every step taken under `ok`. -/
structure Preserved (tid : ι → Int) (ok : Scheduler ι κ → Action ι κ → Prop)
    (inv : Scheduler ι κ → Prop) : Prop where
  create : ∀ s : Scheduler ι κ, inv s →
    inv { s.writeState (some (s.fiberCount, .init)) with fiberCount := s.fiberCount + 1 }
  schedule : ∀ s task thread, inv s → s.known task = true → inv (s.scheduleNolock task thread)
  flags : ∀ (s : Scheduler ι κ) autoStop stoping quiet, inv s →
    inv { s with autoStop := autoStop, stoping := stoping, ioQuiet := quiet }
  start : ∀ s w, inv s → (s.workers w).pc = .unstarted →
    inv (s.setWorker w { s.workers w with pc := .top })
  dequeue : ∀ s w, inv s → ok s (.dequeue w) → (s.workers w).pc = .top →
    inv (s.dequeue (tid w) w)
  leave : ∀ s w how e f, inv s → ok s (.leave w how) → (s.workers w).pc = .task .running e f →
    inv (s.perform w (leaveMove (s.workers w) e f how))
  advance : ∀ s w move, inv s → ok s (.advance w) → Moves s (s.workers w) move →
    inv (s.perform w move)

variable {tid : ι → Int} {ok : Scheduler ι κ → Action ι κ → Prop} {inv : Scheduler ι κ → Prop}

private theorem Preserved.range (preserved : Preserved tid ok inv)
    {tasks : List (Option (Task Nat κ))} :
    ∀ {s : Scheduler ι κ}, inv s → (∀ task ∈ tasks, s.known task = true) →
      inv (tasks.foldl (fun s task => s.scheduleNolock task (-1)) s) := by
  induction tasks with
  | nil => exact fun held _ => held
  | cons task rest ih =>
    intro s held known
    apply ih (preserved.schedule s task (-1) held (known task List.mem_cons_self))
    -- pushing an entry does not change which fibers exist
    intro other member
    have before := known other (List.mem_cons_of_mem _ member)
    simpa only [Scheduler.known, scheduleNolock_fiberCount] using before

theorem Preserved.step (preserved : Preserved tid ok inv) {s s' : Scheduler ι κ} {a : Action ι κ}
    (held : inv s) (allowed : ok s a) (stepped : step tid s a = some s') : inv s' := by
  cases a with
  | create =>
    cases stepped
    exact preserved.create s held
  | schedule task thread =>
    simp only [Scheduler.step, Option.ite_none_right_eq_some, Option.some.injEq] at stepped
    obtain ⟨known, rfl⟩ := stepped
    exact preserved.schedule s task thread held known
  | scheduleRange tasks =>
    simp only [Scheduler.step, Option.ite_none_right_eq_some, Option.some.injEq,
      List.all_eq_true] at stepped
    obtain ⟨known, rfl⟩ := stepped
    exact preserved.range held known
  | setFlags autoStop stoping =>
    cases stepped
    exact preserved.flags s autoStop stoping s.ioQuiet held
  | setIoQuiet quiet =>
    cases stepped
    exact preserved.flags s s.autoStop s.stoping quiet held
  | begin w =>
    simp only [Scheduler.step] at stepped
    split at stepped
    next pc =>
      cases stepped
      exact preserved.start s w held pc
    next => cases stepped
  | dequeue w =>
    simp only [Scheduler.step] at stepped
    split at stepped
    next pc =>
      cases stepped
      exact preserved.dequeue s w held allowed pc
    next => cases stepped
  | leave w how =>
    simp only [Scheduler.step] at stepped
    split at stepped
    next e f pc =>
      cases stepped
      exact preserved.leave s w how e f held allowed pc
    next => cases stepped
  | advance w =>
    simp only [Scheduler.step, Option.map_eq_some_iff] at stepped
    obtain ⟨move, moved, rfl⟩ := stepped
    exact preserved.advance s w move held allowed (moves_of_move moved)

/-- An invariant of every run whose steps meet `ok`. -/
theorem Preserved.run (preserved : Preserved tid ok inv) {s s' : Scheduler ι κ}
    {actions : List (Action ι κ)} (held : inv s)
    (along : Lib.Run.Along (Scheduler.step tid) ok s actions)
    (ran : Lib.Run.exec (Scheduler.step tid) s actions = some s') : inv s' :=
  Lib.Run.exec_invariant inv (fun _ _ _ held allowed stepped => preserved.step held allowed stepped)
    held along ran

/-- An invariant of every reachable state. -/
theorem Preserved.reachable (preserved : Preserved tid (fun _ _ => True) inv)
    {s : Scheduler ι κ} (initially : inv initial) (reachable : Reachable tid s) : inv s := by
  obtain ⟨actions, ran⟩ := reachable
  exact preserved.run initially (Lib.Run.along_trivial _ _) ran

end Rule

end Dwframe.Scheduler
