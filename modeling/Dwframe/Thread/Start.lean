import Dwframe.Lib.Run

/-!
# The start of a thread

The constructor of `Thread` waits on a semaphore until the new thread has stored its id and has
taken the callback out of the object. From then on the object belongs to the thread that
constructed it, which may join it, and destroy it while the callback runs. `t_thread` of the new
thread points to it to the end.
-/
namespace Dwframe

open Lib.Run

/-- Where the thread that constructs the object is. -/
inductive OwnerPc where
  | creating
  /-- In `m_semaphore.wait()`. -/
  | waiting
  | constructed
  /-- `pthread_create` failed. -/
  | threw
  | destroyed
  deriving DecidableEq, Repr

/-- The next statement of `Thread::run`. -/
inductive RunPc where
  | setThis
  | setId
  | setThreadName
  | setSystemName
  | swap
  | notify
  | call
  /-- In `cb()`. -/
  | calling
  | returned
  deriving DecidableEq, Repr

/-- The number of statements of `run` before this one. -/
def RunPc.stage : RunPc → Nat
  | .setThis => 0
  | .setId => 1
  | .setThreadName => 2
  | .setSystemName => 3
  | .swap => 4
  | .notify => 5
  | .call => 6
  | .calling => 7
  | .returned => 8

/-- An object of `Thread`, and what the new thread has of its own. -/
structure ThreadStart (κ : Type) where
  owner : OwnerPc := .creating
  id : Option Nat := none
  /-- `m_thread` is not 0. -/
  thread : Bool := false
  cb : Option κ
  name : String
  semaphore : Nat := 0
  /-- None before `pthread_create`. -/
  run : Option RunPc := none
  t_thread : Bool := false
  t_thread_name : String := "UNKNOW"
  /-- `cb` of `run`. -/
  own : Option κ := none
  /-- The callbacks called. -/
  called : List κ := []
  /-- The calls of `pthread_join` and `pthread_detach`. -/
  reaped : Nat := 0
  /-- The new thread used the object after its end. -/
  dangled : Bool := false
  deriving DecidableEq, Repr

inductive StartAction where
  | create (fails : Bool)
  /-- The constructor returns. -/
  | wake
  | join
  | destroy
  /-- The new thread goes on in `run`. -/
  | run
  /-- The callback calls `Thread::SetName`. -/
  | setName (name : String)
  | returns
  deriving DecidableEq, Repr

namespace ThreadStart

variable {κ : Type}

/-- The constructor, up to `pthread_create`. -/
def start (cb : κ) (name : String) : ThreadStart κ :=
  { cb := some cb, name := if name.isEmpty then "UNKNOW" else name }

/-- The new thread uses the object. -/
def touch (s : ThreadStart κ) : ThreadStart κ :=
  { s with dangled := s.dangled || s.owner == .destroyed }

/-- A statement of `run`. -/
def runStep (tid : Nat) (s : ThreadStart κ) : Option (ThreadStart κ) :=
  match s.run with
  | some .setThis => some { s with run := some .setId, t_thread := true }
  | some .setId => some { s.touch with run := some .setThreadName, id := some tid }
  | some .setThreadName =>
    some { s.touch with run := some .setSystemName, t_thread_name := s.name }
  | some .setSystemName => some { s.touch with run := some .swap }
  | some .swap => some { s.touch with run := some .notify, own := s.cb, cb := s.own }
  | some .notify => some { s.touch with run := some .call, semaphore := s.semaphore + 1 }
  | some .call => some { s with run := some .calling, called := s.called ++ s.own.toList }
  | some .calling | some .returned | none => none

/-- An action, where it can be taken; `tid` is the id of the new thread. -/
def step (tid : Nat) (s : ThreadStart κ) : StartAction → Option (ThreadStart κ)
  | .create fails =>
    if s.owner = .creating then
      if fails then some { s with owner := .threw }
      else some { s with owner := .waiting, thread := true, run := some .setThis }
    else none
  | .wake =>
    if s.owner = .waiting ∧ 0 < s.semaphore then
      some { s with owner := .constructed, semaphore := s.semaphore - 1 }
    else none
  | .join =>
    if s.owner = .constructed then
      if s.thread then
        if s.run = some .returned then
          some { s with thread := false, reaped := s.reaped + 1 }
        else none
      else some s
    else none
  | .destroy =>
    if s.owner = .constructed then
      some { s with
        owner := .destroyed, reaped := if s.thread then s.reaped + 1 else s.reaped }
    else none
  | .run => s.runStep tid
  | .setName name =>
    if s.run = some .calling then
      if s.t_thread then some { s.touch with name := name, t_thread_name := name }
      else some { s with t_thread_name := name }
    else none
  | .returns =>
    if s.run = some .calling then some { s with run := some .returned } else none

/-- What a step can do. -/
inductive Steps (tid : Nat) (s : ThreadStart κ) : StartAction → ThreadStart κ → Prop where
  | threw (creating : s.owner = .creating) : Steps tid s (.create true) { s with owner := .threw }
  | create (creating : s.owner = .creating) : Steps tid s (.create false)
      { s with owner := .waiting, thread := true, run := some .setThis }
  | wake (waiting : s.owner = .waiting) (posted : 0 < s.semaphore) : Steps tid s .wake
      { s with owner := .constructed, semaphore := s.semaphore - 1 }
  | join (constructed : s.owner = .constructed) (thread : s.thread = true)
      (returned : s.run = some .returned) :
      Steps tid s .join { s with thread := false, reaped := s.reaped + 1 }
  | joined (constructed : s.owner = .constructed) : Steps tid s .join s
  | destroy (constructed : s.owner = .constructed) : Steps tid s .destroy
      { s with owner := .destroyed, reaped := if s.thread then s.reaped + 1 else s.reaped }
  | run {s'} (stepped : s.runStep tid = some s') : Steps tid s .run s'
  | setName (name : String) (calling : s.run = some .calling) (this : s.t_thread = true) :
      Steps tid s (.setName name) { s.touch with name := name, t_thread_name := name }
  | rename (name : String) (calling : s.run = some .calling) (none : s.t_thread = false) :
      Steps tid s (.setName name) { s with t_thread_name := name }
  | returns (calling : s.run = some .calling) :
      Steps tid s .returns { s with run := some .returned }

/-! ### The handshake -/

/-- How many statements of `run` are done. -/
def stage (s : ThreadStart κ) : Nat :=
  match s.run with
  | none => 0
  | some pc => pc.stage

/-- A statement of `run`, by the number of those before it. -/
structure RunStep (tid : Nat) (s s' : ThreadStart κ) : Prop where
  stage : s'.stage = s.stage + 1
  before : s.stage ≤ 6
  run : s.run ≠ none ∧ s'.run ≠ none ∧ s'.run ≠ some .returned
  owner : s'.owner = s.owner ∧ s'.thread = s.thread ∧ s'.reaped = s.reaped
  semaphore : s'.semaphore = if s.stage = 5 then s.semaphore + 1 else s.semaphore
  id : s'.id = if s.stage = 1 then some tid else s.id
  cb : s'.cb = (if s.stage = 4 then s.own else s.cb) ∧
    s'.own = if s.stage = 4 then s.cb else s.own
  called : s'.called = if s.stage = 6 then s.called ++ s.own.toList else s.called
  this : s'.t_thread = true ∨ s.stage ≠ 0 ∧ s'.t_thread = s.t_thread
  dangled : s'.dangled = s.dangled ∨ s.stage ≤ 5 ∧ s'.dangled = (s.dangled || s.owner == .destroyed)

/-- What the two threads know of each other. -/
structure Handshake (cb : κ) (tid : Nat) (s : ThreadStart κ) : Prop where
  created : s.run = none ↔ s.owner = .creating ∨ s.owner = .threw
  /-- Up to `notify` the constructor waits. -/
  early : s.stage < 6 → s.semaphore = 0 ∧ s.owner ≠ .constructed ∧ s.owner ≠ .destroyed
  notified : 6 ≤ s.stage → s.owner = .waiting → s.semaphore = 1
  identified : 2 ≤ s.stage → s.id = some tid
  given : s.stage < 5 → s.cb = some cb ∧ s.own = none
  taken : 5 ≤ s.stage → s.cb = none ∧ s.own = some cb
  called : s.called = if 7 ≤ s.stage then [cb] else []
  this : 1 ≤ s.stage → s.t_thread = true
  unreaped : s.owner ≠ .constructed → s.owner ≠ .destroyed → s.reaped = 0
  waiting : s.owner = .waiting → s.thread = true
  joined : s.owner = .constructed →
    if s.thread then s.reaped = 0 else s.reaped = 1 ∧ s.run = some .returned
  gone : s.owner = .destroyed → s.reaped = 1

variable {cb : κ} {tid : Nat} {s s' : ThreadStart κ}

theorem runStep_spec (stepped : s.runStep tid = some s') : s.RunStep tid s' := by
  unfold runStep at stepped
  cases at_pc : s.run with
  | none =>
    rw [at_pc] at stepped
    cases stepped
  | some pc =>
    rw [at_pc] at stepped
    cases pc with
    | calling => cases stepped
    | returned => cases stepped
    | _ =>
      cases stepped
      constructor <;> simp [at_pc, stage, RunPc.stage, touch]

/-- The new thread keeps its part. -/
theorem Handshake.runStep (shaken : s.Handshake cb tid) (stepped : s.runStep tid = some s') :
    s'.Handshake cb tid := by
  have spec := runStep_spec stepped
  obtain ⟨running, running', returned⟩ := spec.run
  obtain ⟨owner, thread, reaped⟩ := spec.owner
  have stage := spec.stage
  have before := spec.before
  have begun : ¬(s.owner = .creating ∨ s.owner = .threw) := mt shaken.created.mpr running
  constructor
  case created =>
    rw [owner]
    exact iff_of_false running' begun
  case early =>
    intro few
    rw [spec.semaphore, if_neg (by omega), owner]
    exact shaken.early (by omega)
  case notified =>
    intro many waits
    rw [owner] at waits
    rw [spec.semaphore]
    split
    next last => rw [(shaken.early (by omega)).1]
    next => exact shaken.notified (by omega) waits
  case identified =>
    intro many
    rw [spec.id]
    split
    next => rfl
    next => exact shaken.identified (by omega)
  case given =>
    intro few
    rw [spec.cb.1, spec.cb.2, if_neg (by omega), if_neg (by omega)]
    exact shaken.given (by omega)
  case taken =>
    intro many
    rw [spec.cb.1, spec.cb.2]
    split
    next =>
      -- `swap` with the empty `cb` of `run`
      obtain ⟨given, none⟩ := shaken.given (by omega)
      exact ⟨none, given⟩
    next => exact shaken.taken (by omega)
  case called =>
    rw [spec.called, stage]
    split
    next last =>
      rw [if_pos (by omega), shaken.called, if_neg (by omega), (shaken.taken (by omega)).2]
      rfl
    next other =>
      rw [shaken.called]
      exact if_congr (by omega) rfl rfl
  case this =>
    intro _
    rcases spec.this with set | ⟨later, same⟩
    · exact set
    · rw [same]
      exact shaken.this (by omega)
  case unreaped =>
    rw [owner, reaped]
    exact shaken.unreaped
  case waiting =>
    rw [owner, thread]
    exact shaken.waiting
  case joined =>
    rw [owner, thread, reaped]
    intro constructed
    have joined := shaken.joined constructed
    split at joined
    next live =>
      rw [if_pos live]
      exact joined
    next =>
      -- a thread that was joined has returned
      have ended : s.stage = 8 := by
        rw [ThreadStart.stage, joined.2]
        rfl
      omega
  case gone =>
    rw [owner, reaped]
    exact shaken.gone

/-- So does the end of the callback. -/
theorem Handshake.returns (shaken : s.Handshake cb tid) (calling : s.run = some .calling) :
    Handshake cb tid { s with run := some .returned } := by
  have stage : s.stage = 7 := by
    rw [ThreadStart.stage, calling]
    rfl
  have begun : ¬(s.owner = .creating ∨ s.owner = .threw) := by
    rw [← shaken.created, calling]
    exact Option.some_ne_none _
  have called := shaken.called
  rw [if_pos (by omega)] at called
  have ended : ({ s with run := some .returned } : ThreadStart κ).stage = 8 := rfl
  exact { shaken with
    created := iff_of_false (Option.some_ne_none _) begun
    early := by omega
    notified := fun _ => shaken.notified (by omega)
    identified := fun _ => shaken.identified (by omega)
    given := by omega
    taken := fun _ => shaken.taken (by omega)
    called := by
      rw [ended, if_pos (by omega)]
      exact called
    this := fun _ => shaken.this (by omega)
    joined := by
      intro constructed
      have joined := shaken.joined constructed
      split at joined
      next live =>
        change if s.thread then _ else _
        rw [if_pos live]
        exact joined
      next =>
        -- it has returned before
        rw [calling] at joined
        cases joined.2 }

/-- The constructor. -/
theorem Handshake.create (shaken : s.Handshake cb tid) (creating : s.owner = .creating) :
    Handshake cb tid { s with owner := .threw } ∧
      Handshake cb tid { s with owner := .waiting, thread := true, run := some .setThis } := by
  have none : s.run = none := shaken.created.mpr (.inl creating)
  have stage : s.stage = 0 := by rw [ThreadStart.stage, none]
  have unreaped : s.reaped = 0 := shaken.unreaped (by rw [creating]; decide)
    (by rw [creating]; decide)
  have called := shaken.called
  have semaphore := (shaken.early (by omega)).1
  have given := shaken.given (by omega)
  rw [if_neg (by omega)] at called
  have waits : ({ s with owner := .waiting, thread := true, run := some .setThis } :
    ThreadStart κ).stage = 0 := rfl
  constructor
  · exact { shaken with
      created := iff_of_true none (.inr rfl)
      early := fun _ => ⟨semaphore, by simp, by simp⟩
      notified := by simp
      unreaped := fun _ _ => unreaped
      waiting := by simp
      joined := by simp
      gone := by simp }
  · exact {
      created := iff_of_false (Option.some_ne_none _) (by simp)
      early := fun _ => ⟨semaphore, by simp, by simp⟩
      notified := by omega
      identified := by omega
      given := fun _ => given
      taken := by omega
      called := by
        rw [waits]
        exact called
      this := by omega
      unreaped := fun _ _ => unreaped
      waiting := fun _ => rfl
      joined := by simp
      gone := by simp }

theorem Handshake.wake (shaken : s.Handshake cb tid) (waiting : s.owner = .waiting)
    (posted : 0 < s.semaphore) :
    Handshake cb tid { s with owner := .constructed, semaphore := s.semaphore - 1 } := by
  have thread := shaken.waiting waiting
  have unreaped : s.reaped = 0 := shaken.unreaped (by rw [waiting]; decide)
    (by rw [waiting]; decide)
  have begun : s.run ≠ none := by
    rw [Ne, shaken.created, waiting]
    decide
  -- nothing but `notify` posts the semaphore
  have many : 6 ≤ s.stage := by
    by_contra few
    have early := shaken.early (by omega)
    omega
  have woken : ({ s with owner := .constructed, semaphore := s.semaphore - 1 } :
    ThreadStart κ).stage = s.stage := rfl
  exact { shaken with
    created := iff_of_false begun (by simp)
    early := by omega
    notified := by simp
    unreaped := fun other => absurd rfl other
    waiting := by simp
    joined := by
      intro _
      change if s.thread then s.reaped = 0 else _
      rw [if_pos thread]
      exact unreaped
    gone := by simp }

theorem Handshake.join (shaken : s.Handshake cb tid) (constructed : s.owner = .constructed)
    (thread : s.thread) (returned : s.run = some .returned) :
    Handshake cb tid { s with thread := false, reaped := s.reaped + 1 } := by
  have unreaped := shaken.joined constructed
  rw [if_pos thread] at unreaped
  exact { shaken with
    unreaped := fun other => absurd constructed other
    waiting := fun waiting => by cases constructed.symm.trans waiting
    joined := fun _ => ⟨by rw [unreaped], returned⟩
    gone := fun destroyed => by cases constructed.symm.trans destroyed }

theorem Handshake.destroy (shaken : s.Handshake cb tid) (constructed : s.owner = .constructed) :
    Handshake cb tid { s with
      owner := .destroyed, reaped := if s.thread then s.reaped + 1 else s.reaped } := by
  have joined := shaken.joined constructed
  have begun : s.run ≠ none := by
    rw [Ne, shaken.created, constructed]
    decide
  -- the constructor has returned
  have many : 6 ≤ s.stage := by
    by_contra few
    exact (shaken.early (by omega)).2.1 constructed
  have ended : ({ s with
    owner := .destroyed, reaped := if s.thread then s.reaped + 1 else s.reaped } :
    ThreadStart κ).stage = s.stage := rfl
  exact { shaken with
    created := iff_of_false begun (by simp)
    early := by omega
    notified := by simp
    unreaped := fun _ other => absurd rfl other
    waiting := by simp
    joined := by simp
    gone := by
      intro _
      change (if s.thread then s.reaped + 1 else s.reaped) = 1
      split at joined
      next live => rw [if_pos live, joined]
      next gone =>
        rw [if_neg gone]
        exact joined.1 }

theorem steps_of_step {act : StartAction} (stepped : s.step tid act = some s') :
    s.Steps tid act s' := by
  cases act with
  | create fails =>
    simp only [step] at stepped
    split at stepped
    next creating =>
      cases fails with
      | true =>
        cases stepped
        exact .threw creating
      | false =>
        cases stepped
        exact .create creating
    next => cases stepped
  | wake =>
    simp only [step] at stepped
    split at stepped
    next ready =>
      cases stepped
      exact .wake ready.1 ready.2
    next => cases stepped
  | join =>
    simp only [step] at stepped
    split at stepped
    next constructed =>
      split at stepped
      next thread =>
        split at stepped
        next returned =>
          cases stepped
          exact .join constructed thread returned
        next => cases stepped
      next =>
        cases stepped
        exact .joined constructed
    next => cases stepped
  | destroy =>
    simp only [step] at stepped
    split at stepped
    next constructed =>
      cases stepped
      exact .destroy constructed
    next => cases stepped
  | run => exact .run stepped
  | setName name =>
    simp only [step] at stepped
    split at stepped
    next calling =>
      split at stepped
      next this =>
        cases stepped
        exact .setName name calling this
      next none =>
        cases stepped
        exact .rename name calling (Bool.not_eq_true _ ▸ none)
    next => cases stepped
  | returns =>
    simp only [step] at stepped
    split at stepped
    next calling =>
      cases stepped
      exact .returns calling
    next => cases stepped

theorem Handshake.step {act : StartAction} (shaken : s.Handshake cb tid)
    (stepped : s.step tid act = some s') : s'.Handshake cb tid := by
  cases steps_of_step stepped with
  | threw creating => exact (shaken.create creating).1
  | create creating => exact (shaken.create creating).2
  | wake waiting posted => exact shaken.wake waiting posted
  | join constructed thread returned => exact shaken.join constructed thread returned
  | joined => exact shaken
  | destroy constructed => exact shaken.destroy constructed
  | run stepped => exact shaken.runStep stepped
  | setName => exact { shaken with }
  | rename => exact { shaken with }
  | returns calling => exact shaken.returns calling

/-! ### Whole runs -/

/-- The object as the thread that constructed it may rely on. -/
structure Started (cb : κ) (tid : Nat) (s : ThreadStart κ) : Prop where
  /-- From the end of the constructor on. -/
  identified : s.owner = .constructed ∨ s.owner = .destroyed →
    s.id = some tid ∧ s.cb = none ∧ s.own = some cb
  /-- The callback is called once, by the new thread. -/
  called : s.called = if s.run = some .calling ∨ s.run = some .returned then [cb] else []
  /-- `join` returns behind the callback. -/
  joined : s.owner = .constructed → s.thread = false → s.run = some .returned
  /-- The thread is joined or detached once. -/
  reaped : s.reaped ≤ 1 ∧ (s.owner = .destroyed → s.reaped = 1)

theorem late_iff : 7 ≤ s.stage ↔ s.run = some .calling ∨ s.run = some .returned := by
  unfold stage
  cases s.run with
  | none => simp
  | some pc => cases pc <;> simp [RunPc.stage]

theorem Handshake.started (shaken : s.Handshake cb tid) : s.Started cb tid := by
  refine ⟨?_, ?_, ?_, ?_, shaken.gone⟩
  · intro done
    have many : 6 ≤ s.stage := by
      by_contra few
      obtain ⟨_, constructed, destroyed⟩ := shaken.early (by omega)
      exact done.elim constructed destroyed
    exact ⟨shaken.identified (by omega), shaken.taken (by omega)⟩
  · rw [shaken.called]
    exact if_congr late_iff rfl rfl
  · intro constructed gone
    have joined := shaken.joined constructed
    rw [gone] at joined
    exact joined.2
  · by_cases constructed : s.owner = .constructed
    · have joined := shaken.joined constructed
      split at joined
      next => omega
      next => omega
    · by_cases destroyed : s.owner = .destroyed
      · exact Nat.le_of_eq (shaken.gone destroyed)
      · rw [shaken.unreaped constructed destroyed]
        exact Nat.zero_le 1

end ThreadStart

end Dwframe
