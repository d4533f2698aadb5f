import Dwframe.Config.Model
import Dwframe.Lib.Run

/-!
# Concurrent setters

`setValue` notifies the listeners under the read lock, gives the lock up, and stores the value
under the write lock; `fromString` does the same with the value it has converted. Any number of
threads run these two sections, each section at one moment.
A listener mirrors the variable: it keeps the new value it was last passed, and starts with the
value the variable starts with.

Whether a listener throws may differ from call to call.
-/
namespace Dwframe

open Lib.Run

variable {τ V κ θ : Type}

namespace ConfigVar

/-- `setValue` under the read lock: `none` when the value is the same, else the listeners that
were called and whether all of them returned. -/
def notifySection (same : V → V → Bool) (returns : κ → V → V → Bool) (var : ConfigVar τ V κ)
    (v : V) : Option (List Nat × Bool) :=
  if same var.val v then none else some (notify returns var.val v var.cbs)

/-- `setValue` under the write lock. -/
def storeSection (var : ConfigVar τ V κ) (v : V) : ConfigVar τ V κ := { var with val := v }

/-- One thread alone runs its sections one after the other. -/
theorem setValue_eq_sections (types : ConfigTypes τ V κ) (var : ConfigVar τ V κ) (v : V) :
    var.setValue types v =
      match var.notifySection types.same types.returns v with
      | none => (var, [], true)
      | some (called, true) => (var.storeSection v, called, true)
      | some (called, false) => (var, called, false) := by
  unfold setValue notifySection
  split
  next => rfl
  next =>
    cases notified : notify types.returns var.val v var.cbs with
    | mk called returned => cases returned <;> rfl

/-- A loop that ends has called every listener. -/
theorem notify_all {returns : κ → V → V → Bool} {old new : V} {cbs : List (Nat × κ)}
    {called : List Nat} (notified : notify returns old new cbs = (called, true)) :
    called = cbs.map Prod.fst := by
  induction cbs generalizing called with
  | nil =>
    cases notified
    rfl
  | cons entry rest ih =>
    obtain ⟨key, cb⟩ := entry
    simp only [notify] at notified
    split at notified
    next =>
      simp only [Prod.mk.injEq] at notified
      obtain ⟨rfl, returned⟩ := notified
      exact congrArg _ (ih (Prod.ext rfl returned))
    next => simp at notified

/-- Every listener of a loop that ends has returned. -/
theorem notify_returns {returns : κ → V → V → Bool} {old new : V} {cbs : List (Nat × κ)}
    {called : List Nat} (notified : notify returns old new cbs = (called, true)) :
    ∀ entry ∈ cbs, returns entry.2 old new = true := by
  induction cbs generalizing called with
  | nil => simp
  | cons entry rest ih =>
    simp only [notify] at notified
    split at notified
    next returned =>
      simp only [Prod.mk.injEq] at notified
      intro other member
      rcases List.mem_cons.mp member with rfl | later
      · exact returned
      · exact ih (Prod.ext rfl notified.2) other later
    next => simp at notified

/-- A loop that is cut short has met a listener that throws. -/
theorem notify_throws {returns : κ → V → V → Bool} {old new : V} {cbs : List (Nat × κ)}
    {called : List Nat} (notified : notify returns old new cbs = (called, false)) :
    ∃ entry ∈ cbs, returns entry.2 old new = false := by
  induction cbs generalizing called with
  | nil => cases notified
  | cons entry rest ih =>
    simp only [notify] at notified
    split at notified
    next =>
      simp only [Prod.mk.injEq] at notified
      obtain ⟨thrower, member, throws⟩ := ih (Prod.ext rfl notified.2)
      exact ⟨thrower, List.mem_cons_of_mem _ member, throws⟩
    next throws => exact ⟨entry, List.mem_cons_self, by simpa using throws⟩

theorem notify_first {returns : κ → V → V → Bool} {old new : V} {entry : Nat × κ}
    {rest : List (Nat × κ)} {called : List Nat} {returned : Bool}
    (notified : notify returns old new (entry :: rest) = (called, returned)) :
    entry.1 ∈ called := by
  simp only [notify] at notified
  split at notified
  next =>
    cases notified
    exact List.mem_cons_self
  next =>
    cases notified
    exact List.mem_cons_self

end ConfigVar

/-- A variable and the threads between the two sections of `setValue`. -/
structure Setters (θ τ V κ : Type) where
  var : ConfigVar τ V κ
  /-- The new value last passed to each listener. -/
  mirror : Nat → V
  /-- The value a thread has announced and not stored yet. -/
  inProgress : θ → Option V
  /-- The value the latest notification passed to every listener; none if it was cut short. -/
  announced : Option V

namespace Setters

/-- The sections the threads run. -/
inductive Section (θ V κ : Type) where
  | notify (thread : θ) (v : V) (returns : κ → V → V → Bool)
  | store (thread : θ)

def start (var : ConfigVar τ V κ) : Setters θ τ V κ where
  var := var
  mirror := fun _ => var.val
  inProgress := fun _ => none
  announced := some var.val

variable [DecidableEq θ] (same : V → V → Bool)

/-- The thread has called these listeners; if one of them threw, its `setValue` is over. -/
def announce (s : Setters θ τ V κ) (thread : θ) (v : V) (called : List Nat) (returned : Bool) :
    Setters θ τ V κ :=
  { s with
    mirror := fun key => if key ∈ called then v else s.mirror key
    inProgress := if returned then Function.update s.inProgress thread (some v) else s.inProgress
    announced := if returned then some v else none }

/-- The thread stores what it has announced. -/
def store (s : Setters θ τ V κ) (thread : θ) (v : V) : Setters θ τ V κ :=
  { s with
    var := s.var.storeSection v
    inProgress := Function.update s.inProgress thread none }

/-- A thread starts a `setValue` when its last one is over. -/
def step (s : Setters θ τ V κ) : Section θ V κ → Option (Setters θ τ V κ)
  | .notify thread v returns =>
    match s.inProgress thread with
    | some _ => none
    | none =>
      match s.var.notifySection same returns v with
      | none => some s
      | some (called, returned) => some (s.announce thread v called returned)
  | .store thread => (s.inProgress thread).map (s.store thread)

/-- No `setValue` is in progress. -/
def Idle (s : Setters θ τ V κ) : Prop := ∀ thread, s.inProgress thread = none

/-- Every listener was last passed the value of the variable. -/
def Agrees (s : Setters θ τ V κ) : Prop := ∀ entry ∈ s.var.cbs, s.mirror entry.1 = s.var.val

/-- While no other `setValue` is in progress, no listener throws, and the value stored is the one
announced last. -/
def Orderly (s : Setters θ τ V κ) : Section θ V κ → Prop
  | .notify _ v returns => s.Idle → same s.var.val v = true ∨
    ∀ entry ∈ s.var.cbs, returns entry.2 s.var.val v = true
  | .store thread => ∀ v, s.inProgress thread = some v →
    (∀ other, other ≠ thread → s.inProgress other = none) → s.announced = some v

/-! ### Steps -/

variable {same} {s s' : Setters θ τ V κ}

/-- The sections a step can be, each with its guard and its effect. -/
inductive Stepped (same : V → V → Bool) (s : Setters θ τ V κ) :
    Section θ V κ → Setters θ τ V κ → Prop where
  | unchanged (thread : θ) (v : V) (returns : κ → V → V → Bool)
      (free : s.inProgress thread = none) (equal : same s.var.val v = true) :
      Stepped same s (.notify thread v returns) s
  | notified (thread : θ) (v : V) (returns : κ → V → V → Bool) (called : List Nat)
      (returned : Bool) (free : s.inProgress thread = none) (differs : ¬same s.var.val v = true)
      (notified : ConfigVar.notify returns s.var.val v s.var.cbs = (called, returned)) :
      Stepped same s (.notify thread v returns) (s.announce thread v called returned)
  | stored (thread : θ) (v : V) (pending : s.inProgress thread = some v) :
      Stepped same s (.store thread) (s.store thread v)

theorem stepped_iff {act : Section θ V κ} :
    s.step same act = some s' ↔ Stepped same s act s' := by
  constructor
  · intro stepped
    cases act with
    | notify thread v returns =>
      cases free : s.inProgress thread with
      | some w => simp [step, free] at stepped
      | none =>
        by_cases equal : same s.var.val v = true
        · simp only [step, free, ConfigVar.notifySection, if_pos equal, Option.some.injEq]
            at stepped
          subst stepped
          exact .unchanged thread v returns free equal
        · simp only [step, free, ConfigVar.notifySection, if_neg equal, Option.some.injEq]
            at stepped
          subst stepped
          exact .notified thread v returns _ _ free equal rfl
    | store thread =>
      obtain ⟨v, pending, rfl⟩ := Option.map_eq_some_iff.mp stepped
      exact .stored thread v pending
  · intro stepped
    cases stepped with
    | unchanged thread v returns free equal =>
      simp only [step, free, ConfigVar.notifySection, if_pos equal]
    | notified thread v returns called returned free differs notified =>
      simp only [step, free, ConfigVar.notifySection, if_neg differs, notified]
    | stored thread v pending => simp only [step, pending, Option.map_some]

/-! ### Orderly runs -/

/-- What an orderly run keeps. -/
structure Synced (s : Setters θ τ V κ) : Prop where
  announced : ∀ v, s.announced = some v → ∀ entry ∈ s.var.cbs, s.mirror entry.1 = v
  idle : s.Idle → s.Agrees

omit [DecidableEq θ] in
theorem start_synced (var : ConfigVar τ V κ) : (start var : Setters θ τ V κ).Synced where
  announced := by
    intro v announced entry member
    cases announced
    rfl
  idle := fun _ _ _ => rfl

theorem step_synced {act : Section θ V κ} (synced : s.Synced) (orderly : s.Orderly same act)
    (stepped : Stepped same s act s') : s'.Synced := by
  cases stepped with
  | unchanged => exact synced
  | notified thread v returns called returned free differs notified =>
    cases returned with
    | true =>
      constructor
      -- every listener was called, with the value that is announced
      · intro w announced entry member
        cases announced
        have reached : entry.1 ∈ called := by
          rw [ConfigVar.notify_all notified]
          exact List.mem_map_of_mem member
        exact if_pos reached
      · intro idle
        -- the thread that has announced is in progress now
        have own : Function.update s.inProgress thread (some v) thread = none := idle thread
        simp at own
    | false =>
      constructor
      -- a notification that is cut short announces nothing
      · intro w announced
        cases announced
      · intro idle
        -- nothing else was in progress, and an orderly step throws only while something is
        obtain ⟨entry, member, throws⟩ := ConfigVar.notify_throws notified
        rcases orderly idle with equal | returning
        · exact absurd equal differs
        · rw [returning entry member] at throws
          cases throws
  | stored thread v pending =>
    constructor
    · exact synced.announced
    · intro idle entry member
      -- the store leaves the listeners alone, so the value stored has to be the one they have
      apply synced.announced v _ entry member
      apply orderly v pending
      intro other different
      -- all others were idle before the store as they are behind it
      have done : Function.update s.inProgress thread none other = none := idle other
      rwa [Function.update_of_ne different] at done

/-- In a run whose steps are orderly, every listener has the variable's value whenever no
`setValue` is in progress. -/
theorem agrees_of_orderly (var : ConfigVar τ V κ) (sections : List (Section θ V κ))
    (orderly : Along (step same) (Orderly same) (start var) sections)
    (ran : exec (step same) (start var) sections = some s) (idle : s.Idle) : s.Agrees :=
  (exec_invariant Synced (fun _ _ _ synced orderly stepped =>
    step_synced synced orderly (stepped_iff.mp stepped))
    (start_synced var) orderly ran).idle idle

/-- A size with one listener, set by threads 0 and 1. -/
def sizeVar : ConfigVar Unit Nat Unit := ⟨"http.request.buffer_size", "", (), 4096, [(1, ())]⟩

/-- The thread that announces last stores last. -/
theorem agrees_of_orderly_last_stores_last :
    ∃ s : Setters Nat Unit Nat Unit,
      exec (step fun a b => a == b) (start sizeVar)
        [.notify 0 1024 fun _ _ _ => true, .notify 1 2048 fun _ _ _ => true, .store 0,
          .store 1] = some s ∧ s.Idle ∧ s.Agrees := by
  have orderly : Along (step fun a b => a == b) (Orderly fun a b => a == b)
      (start sizeVar : Setters Nat Unit Nat Unit)
      [.notify 0 1024 fun _ _ _ => true, .notify 1 2048 fun _ _ _ => true, .store 0,
        .store 1] := by
    refine ⟨fun _ => Or.inr fun _ _ => rfl, fun s₁ h₁ => ?_⟩
    -- the condition on a step is about the state the one before it leads to
    cases h₁
    refine ⟨fun _ => Or.inr fun _ _ => rfl, fun s₂ h₂ => ?_⟩
    cases h₂
    refine ⟨fun v pending others => ?_, fun s₃ h₃ => ?_⟩
    · have pending_other := others 1 (by decide)
      cases pending_other
    cases h₃
    refine ⟨fun v pending others => ?_, fun _ _ => trivial⟩
    cases pending
    rfl
  refine ⟨_, rfl, ?idle, agrees_of_orderly sizeVar _ orderly rfl ?idle⟩
  intro thread
  by_cases last : thread = 1
  · subst last
    rfl
  · by_cases first : thread = 0
    · subst first
      rfl
    · simp [store, announce, start, Function.update_of_ne last, Function.update_of_ne first]

/-- Two setters announce in one order and store in the other: the listener keeps 2048, the
variable is 1024. An exception: the listener keeps 1024, the variable is still 4096. -/
theorem listener_disagrees :
    (∃ s : Setters Nat Unit Nat Unit,
      exec (step fun a b => a == b) (start sizeVar)
        [.notify 0 1024 fun _ _ _ => true, .notify 1 2048 fun _ _ _ => true, .store 1,
          .store 0] = some s ∧ s.Idle ∧ ¬s.Agrees) ∧
    ∃ s : Setters Nat Unit Nat Unit,
      exec (step fun a b => a == b) (start sizeVar)
        [.notify 0 1024 fun _ _ _ => false] = some s ∧ s.Idle ∧ ¬s.Agrees := by
  refine ⟨⟨_, rfl, ?_, ?_⟩, ⟨_, rfl, fun thread => rfl, ?_⟩⟩
  · intro thread
    by_cases last : thread = 0
    · subst last
      rfl
    · by_cases first : thread = 1
      · subst first
        rfl
      · simp [store, announce, start, Function.update_of_ne last, Function.update_of_ne first]
  · intro agrees
    have equal := agrees (1, ()) (by decide)
    revert equal
    decide
  · intro agrees
    have equal := agrees (1, ()) (by decide)
    revert equal
    decide

/-! ### Runs that agree are orderly -/

/-- A listener throws only while no `setValue` is in progress. -/
def AloneThrows (s : Setters θ τ V κ) : Section θ V κ → Prop
  | .notify _ v returns => s.Idle ∨ ∀ entry ∈ s.var.cbs, returns entry.2 s.var.val v = true
  | .store _ => True

/-- Where the claim holds after a step. -/
def Meets (same : V → V → Bool) (s : Setters θ τ V κ) (act : Section θ V κ) : Prop :=
  ∀ s', Stepped same s act s' → s'.Idle → s'.Agrees

/-- With exceptions out of the way, the latest notification has reached every listener. -/
structure Reached (s : Setters θ τ V κ) : Prop where
  synced : s.Synced
  announced : ∃ v, s.announced = some v
  listener : s.var.cbs ≠ []

/-- An exception while nothing is in progress leaves the first listener with a value the variable
does not have. -/
private theorem not_thrown (reflexive : ∀ v, same v v = true) {thread : θ} {v : V}
    {returns : κ → V → V → Bool} {called : List Nat} (reached : s.Reached) (idle : s.Idle)
    (meets : Meets same s (.notify thread v returns)) (differs : ¬same s.var.val v = true) :
    ConfigVar.notify returns s.var.val v s.var.cbs ≠ (called, false) := by
  intro notified
  have agrees := meets _ (.notified thread v returns called false (idle thread) differs notified)
    idle
  obtain ⟨first, rest, listeners⟩ := List.exists_cons_of_ne_nil reached.listener
  have member : first ∈ s.var.cbs := by simp [listeners]
  rw [listeners] at notified
  -- the first listener was called in any case, with a value that is not the variable's
  have passed : (if first.1 ∈ called then v else s.mirror first.1) = s.var.val :=
    agrees first member
  rw [if_pos (ConfigVar.notify_first notified)] at passed
  subst passed
  exact differs (reflexive _)

theorem Reached.orderly (reflexive : ∀ v, same v v = true) {act : Section θ V κ}
    (reached : s.Reached) (meets : Meets same s act) : s.Orderly same act := by
  cases act with
  | notify thread v returns =>
    intro idle
    by_cases equal : same s.var.val v = true
    · exact Or.inl equal
    · right
      cases notified : ConfigVar.notify returns s.var.val v s.var.cbs with
      | mk called returned =>
        cases returned with
        | true => exact ConfigVar.notify_returns notified
        | false => exact absurd notified (not_thrown reflexive reached idle meets equal)
  | store thread =>
    intro v pending others
    obtain ⟨w, announced⟩ := reached.announced
    obtain ⟨first, rest, listeners⟩ := List.exists_cons_of_ne_nil reached.listener
    have member : first ∈ s.var.cbs := by simp [listeners]
    have idle : (s.store thread v).Idle := by
      intro other
      by_cases own : other = thread
      · subst own
        exact Function.update_self _ _ _
      · exact (Function.update_of_ne own _ _).trans (others other own)
    -- a listener tells which value was announced last
    have stored : s.mirror first.1 = v := meets _ (.stored thread v pending) idle first member
    rw [announced, ← reached.synced.announced w announced first member, stored]

theorem Reached.step (reflexive : ∀ v, same v v = true) {act : Section θ V κ}
    (reached : s.Reached) (alone : s.AloneThrows act) (meets : Meets same s act)
    (stepped : Stepped same s act s') : s'.Reached := by
  have synced := step_synced reached.synced (reached.orderly reflexive meets) stepped
  cases stepped with
  | unchanged => exact reached
  | notified thread v returns called returned free differs notified =>
    refine ⟨synced, ?_, reached.listener⟩
    cases returned with
    | true => exact ⟨v, rfl⟩
    | false =>
      rcases alone with idle | returning
      · exact absurd notified (not_thrown reflexive reached idle meets differs)
      · obtain ⟨entry, member, throws⟩ := ConfigVar.notify_throws notified
        rw [returning entry member] at throws
        cases throws
  | stored thread v pending => exact ⟨synced, reached.announced, reached.listener⟩

/-- Conversely, with a listener, a reflexive `==` and exceptions only while nothing else is in
progress, a run in which the claim holds after every step is orderly. -/
theorem orderly_of_agrees (reflexive : ∀ v, same v v = true) (var : ConfigVar τ V κ)
    (listener : var.cbs ≠ []) (sections : List (Section θ V κ))
    (agrees : Along (step same) (fun s act => s.AloneThrows act ∧ Meets same s act) (start var)
      sections) :
    Along (step same) (Orderly same) (start var) sections := by
  apply along_of_invariant Reached _ _ ⟨start_synced var, ⟨var.val, rfl⟩, listener⟩ agrees
  · intro s act reached ok
    exact reached.orderly reflexive ok.2
  · intro s act s' reached ok stepped
    exact reached.step reflexive ok.1 ok.2 (stepped_iff.mp stepped)

end Setters

end Dwframe
