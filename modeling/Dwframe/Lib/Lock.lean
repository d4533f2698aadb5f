import Dwframe.Lib.Run
import Dwframe.Lib.Tally
import Mathlib.Algebra.Order.BigOperators.Group.Finset
import Mathlib.Algebra.Order.Group.Nat

/-!
# A lock and its parties

A lock can be taken exclusively, or shared with others. It does not know who has it: whoever gives
it back, one who has it loses it. Parties that take it and give it back in turn keep each other
out, in every interleaving. A party that gives it back once too often takes it from another.
-/
namespace Dwframe.Lib

inductive Access where
  | shared
  | exclusive
  deriving DecidableEq, Repr

inductive LockEvent where
  | take (access : Access)
  | release
  deriving DecidableEq, Repr

namespace LockEvent

/-- What a party has of the lock after an event. It takes what it does not have, and gives back
what it has. -/
def own : Option Access → LockEvent → Option (Option Access)
  | none, .take access => some (some access)
  | some _, .release => some none
  -- gives back what it has not, or waits for itself
  | none, .release => none
  | some _, .take _ => none

/-- What a party has of the lock by its last event. -/
def after : LockEvent → Option Access
  | .take access => some access
  | .release => none

theorem own_after {held held' : Option Access} {event : LockEvent}
    (owned : own held event = some held') : held' = event.after := by
  cases held <;> cases event <;> cases owned <;> rfl

/-- A party with these events takes the lock and gives it back in turn, and has nothing of it at
the end. -/
def Paired (events : List LockEvent) : Prop := Run.exec own none events = some none

instance (events : List LockEvent) : Decidable (Paired events) :=
  inferInstanceAs (Decidable (_ = _))

theorem Paired.append {events more : List LockEvent} (front : Paired events) :
    Paired (events ++ more) ↔ Paired more := by
  rw [Paired, Run.exec_append, front, Option.bind_some, Paired]

theorem paired_flatten {turns : List (List LockEvent)} (each : ∀ turn ∈ turns, Paired turn) :
    Paired turns.flatten := by
  induction turns with
  | nil => rfl
  | cons turn rest ih =>
    obtain ⟨first, later⟩ := List.forall_mem_cons.mp each
    rw [List.flatten_cons, first.append]
    exact ih later

theorem paired_turns (access : Access) (n : Nat) :
    Paired (List.replicate n [take access, release]).flatten := by
  refine paired_flatten fun turn member => ?_
  rw [List.eq_of_mem_replicate member]
  rfl

/-- A release of what the party does not have. -/
theorem not_paired_of_release {front more : List LockEvent} (paired : Paired front) :
    ¬Paired (front ++ release :: more) := by
  rw [paired.append]
  exact Option.some_ne_none _ ∘ Eq.symm

end LockEvent

/-- A lock that has `readers` shared holders, or is `written`. -/
structure Lock where
  readers : Nat
  written : Bool
  deriving DecidableEq, Repr

namespace Lock

/-- It is none where the caller waits, and for a release of what nobody has. -/
def step (lock : Lock) : LockEvent → Option Lock
  | .take .shared => if lock.written then none else some { lock with readers := lock.readers + 1 }
  | .take .exclusive =>
    if lock.written || lock.readers != 0 then none else some { lock with written := true }
  | .release =>
    -- nobody asks whose it was
    if lock.written then some { lock with written := false }
    else if lock.readers = 0 then none
    else some { lock with readers := lock.readers - 1 }

/-- The lock that one party alone has so. -/
def heldBy : Option Access → Lock
  | none => ⟨0, false⟩
  | some .shared => ⟨1, false⟩
  | some .exclusive => ⟨0, true⟩

theorem step_heldBy {held held' : Option Access} {event : LockEvent}
    (owned : event.own held = some held') : (heldBy held).step event = some (heldBy held') := by
  rcases held with _ | _ | _ <;> rcases event with ⟨_ | _⟩ | _ <;> cases owned <;> rfl

/-- One for a party that has the lock so. -/
def share (access : Access) (held : Option Access) : Nat := if held = some access then 1 else 0

/-- Shared and exclusive holders do not meet. -/
def Apart (lock : Lock) : Prop := lock.written = true → lock.readers = 0

theorem written_of_share {lock : Lock}
    (counted : share .exclusive (some .exclusive) ≤ lock.written.toNat) : lock.written = true := by
  cases alone : lock.written with
  | true => rfl
  | false =>
    rw [alone] at counted
    exact absurd counted (by decide)

/-- An event of a party that the lock counts changes the counts by the share of this party. -/
theorem step_counts {lock lock' : Lock} {event : LockEvent} {held held' : Option Access}
    (apart : lock.Apart) (readers : share .shared held ≤ lock.readers)
    (written : share .exclusive held ≤ lock.written.toNat) (owned : event.own held = some held')
    (taken : lock.step event = some lock') :
    lock'.Apart ∧ lock'.readers + share .shared held = lock.readers + share .shared held' ∧
      lock'.written.toNat + share .exclusive held =
        lock.written.toNat + share .exclusive held' := by
  cases event with
  | take access =>
    -- it had nothing, and waited for the lock
    cases held with
    | some => cases owned
    | none =>
      cases owned
      cases access with
      | shared =>
        simp only [step, Option.ite_none_left_eq_some, Option.some.injEq] at taken
        obtain ⟨unwritten, rfl⟩ := taken
        simp [Apart, share, unwritten]
      | exclusive =>
        simp only [step, Option.ite_none_left_eq_some, Option.some.injEq] at taken
        obtain ⟨free, rfl⟩ := taken
        simp only [Bool.or_eq_true, bne_iff_ne, not_or, Bool.not_eq_true, Decidable.not_not] at free
        simp [Apart, share, free]
  | release =>
    cases held with
    | none => cases owned
    | some access =>
      cases owned
      cases access with
      | shared =>
        -- a shared holder is counted, so nobody writes
        have some_reader : 1 ≤ lock.readers := readers
        have unwritten : lock.written = false := by
          cases both : lock.written with
          | false => rfl
          | true => rw [apart both] at some_reader; omega
        simp only [step, unwritten, Bool.false_eq_true, if_false] at taken
        rw [if_neg (by omega)] at taken
        cases taken
        simp [Apart, share, unwritten]
        omega
      | exclusive =>
        have by_it := written_of_share written
        rw [step, if_pos by_it] at taken
        cases taken
        simp [Apart, share, by_it]

end Lock

/-- The parties of a lock: what each has of it by its own account, and its events to come. -/
structure Parties (ι : Type) where
  lock : Lock
  holds : ι → Option Access
  rest : ι → List LockEvent

namespace Parties

variable {ι : Type} [DecidableEq ι]

/-- Before any event. -/
def start (events : ι → List LockEvent) : Parties ι := ⟨.heldBy none, fun _ => none, events⟩

/-- Party `i` is done with an event. -/
def done (w : Parties ι) (i : ι) (event : LockEvent) (rest : List LockEvent) (lock : Lock) :
    Parties ι :=
  ⟨lock, Function.update w.holds i event.after, Function.update w.rest i rest⟩

section Done

variable (w : Parties ι) (i : ι) (event : LockEvent) (rest : List LockEvent) (lock : Lock)

@[simp] theorem done_lock : (w.done i event rest lock).lock = lock := rfl

@[simp] theorem done_holds :
    (w.done i event rest lock).holds = Function.update w.holds i event.after := rfl

@[simp] theorem done_rest :
    (w.done i event rest lock).rest = Function.update w.rest i rest := rfl

end Done

/-- The next event of party `i`. -/
def step (w : Parties ι) (i : ι) : Option (Parties ι) :=
  match w.rest i with
  | [] => none
  | event :: rest => (w.lock.step event).map (w.done i event rest)

theorem step_eq {w : Parties ι} {i : ι} {event : LockEvent} {rest : List LockEvent} {lock : Lock}
    (next : w.rest i = event :: rest) (taken : w.lock.step event = some lock) :
    w.step i = some (w.done i event rest lock) := by
  rw [step, next]
  simp only [taken, Option.map_some]

theorem step_cases {w w' : Parties ι} {i : ι} (stepped : w.step i = some w') :
    ∃ event rest lock, w.rest i = event :: rest ∧ w.lock.step event = some lock ∧
      w' = w.done i event rest lock := by
  rw [step] at stepped
  split at stepped
  next => cases stepped
  next event rest next =>
    obtain ⟨lock, taken, rfl⟩ := Option.map_eq_some_iff.mp stepped
    exact ⟨event, rest, lock, next, taken, rfl⟩

/-! ### Parties that give back what they take -/

section Exclusion

variable [Fintype ι]

/-- The lock counts its holders, and each party has taken what it will give back. -/
structure Orderly (w : Parties ι) : Prop where
  paired : ∀ i, Run.exec LockEvent.own (w.holds i) (w.rest i) = some none
  readers : ∑ i, Lock.share .shared (w.holds i) = w.lock.readers
  written : ∑ i, Lock.share .exclusive (w.holds i) = w.lock.written.toNat
  apart : w.lock.Apart

namespace Orderly

variable {w w' : Parties ι} {i j : ι}

omit [DecidableEq ι] in
/-- A party that has the lock is counted. -/
theorem share_le (orderly : w.Orderly) (i : ι) :
    Lock.share .shared (w.holds i) ≤ w.lock.readers ∧
      Lock.share .exclusive (w.holds i) ≤ w.lock.written.toNat := by
  rw [← orderly.readers, ← orderly.written]
  exact ⟨Finset.single_le_sum (f := fun i => Lock.share .shared (w.holds i))
      (fun _ _ => Nat.zero_le _) (Finset.mem_univ i),
    Finset.single_le_sum (f := fun i => Lock.share .exclusive (w.holds i))
      (fun _ _ => Nat.zero_le _) (Finset.mem_univ i)⟩

omit [DecidableEq ι] in
theorem start {events : ι → List LockEvent} (paired : ∀ i, LockEvent.Paired (events i)) :
    (start events).Orderly where
  paired := paired
  readers := Finset.sum_eq_zero fun _ _ => rfl
  written := Finset.sum_eq_zero fun _ _ => rfl
  apart := fun written => Bool.noConfusion written

theorem step (orderly : w.Orderly) (stepped : w.step i = some w') : w'.Orderly := by
  obtain ⟨event, rest, lock, next, taken, rfl⟩ := step_cases stepped
  -- what the party has by its own account before the event, and after it
  have own := orderly.paired i
  rw [next, Run.exec] at own
  obtain ⟨held', owned, later⟩ := Option.bind_eq_some_iff.mp own
  cases LockEvent.own_after owned
  -- the share of this party changes, in the count and in the lock alike
  obtain ⟨readers, written⟩ := orderly.share_le i
  obtain ⟨apart, shared, exclusive⟩ :=
    Lock.step_counts orderly.apart readers written owned taken
  have shares := Tally.sum_update (Lock.share .shared) w.holds i event.after
  have writes := Tally.sum_update (Lock.share .exclusive) w.holds i event.after
  rw [orderly.readers] at shares
  rw [orderly.written] at writes
  refine ⟨?_, ?_, ?_, apart⟩
  · intro j
    by_cases self : j = i
    · subst self
      simpa using later
    · simpa [Function.update_of_ne self] using orderly.paired j
  · rw [done_holds, done_lock]
    omega
  · rw [done_holds, done_lock]
    omega

theorem exec (orderly : w.Orderly) {schedule : List ι}
    (ran : Run.exec Parties.step w schedule = some w') : w'.Orderly :=
  Run.exec_invariant Orderly (fun _ _ _ held _ stepped => held.step stepped)
    orderly (Run.along_trivial _ _) ran

omit [DecidableEq ι] in
/-- Whoever has the lock exclusively has it alone. -/
theorem excludes (orderly : w.Orderly) (has : w.holds i = some .exclusive) (other : j ≠ i) :
    w.holds j = none := by
  obtain ⟨readers, -⟩ := orderly.share_le j
  obtain ⟨-, written⟩ := orderly.share_le i
  rw [has] at written
  have by_it := Lock.written_of_share written
  -- a second one that has it exclusively would count two, a shared one is not there
  have pair := Finset.add_le_sum (f := fun i => Lock.share .exclusive (w.holds i))
    (fun _ _ => Nat.zero_le _) (Finset.mem_univ i) (Finset.mem_univ j) other.symm
  rw [orderly.written, by_it, has] at pair
  rw [orderly.apart by_it] at readers
  rcases holds : w.holds j with _ | _ | _
  · rfl
  · rw [holds] at readers
    exact absurd readers (by decide)
  · rw [holds] at pair
    exact absurd pair (by decide)

end Orderly

/-- In every interleaving of parties that take and give back in turn, one that has the lock
exclusively has it alone. -/
theorem exclusion {events : ι → List LockEvent} (paired : ∀ i, LockEvent.Paired (events i))
    {schedule : List ι} {w : Parties ι}
    (ran : Run.exec Parties.step (start events) schedule = some w) {i j : ι}
    (has : w.holds i = some .exclusive) (other : j ≠ i) : w.holds j = none :=
  ((Orderly.start paired).exec ran).excludes has other

end Exclusion

/-! ### A release too many -/

/-- A party by itself, from a lock that only it may have, does all of its paired events. -/
theorem exec_alone {w : Parties ι} {i : ι} {events more : List LockEvent} {held : Option Access}
    (lock : w.lock = .heldBy (w.holds i)) (next : w.rest i = events ++ more)
    (owned : Run.exec LockEvent.own (w.holds i) events = some held) :
    Run.exec step w (List.replicate events.length i) =
      some ⟨.heldBy held, Function.update w.holds i held, Function.update w.rest i more⟩ := by
  -- the lock is always the one that this party alone has
  induction events generalizing w with
  | nil =>
    cases owned
    rw [List.nil_append] at next
    rw [← next, ← lock, Function.update_eq_self, Function.update_eq_self]
    rfl
  | cons event events ih =>
    rw [Run.exec] at owned
    obtain ⟨mid, first, later⟩ := Option.bind_eq_some_iff.mp owned
    have taken := Lock.step_heldBy first
    cases LockEvent.own_after first
    rw [List.cons_append] at next
    rw [List.length_cons, List.replicate_succ, Run.exec, step_eq next (lock ▸ taken),
      Option.bind_some, ih (by simp) (by simp) (by simpa using later)]
    simp [done]

/-- A party that gives the lock back once more than it takes it lets two others have it
exclusively at once. -/
theorem two_inside {events : ι → List LockEvent} {i j k : ι} (ji : j ≠ i) (ki : k ≠ i)
    (jk : j ≠ k) {front more laterJ laterK : List LockEvent} (paired : LockEvent.Paired front)
    (spare : events i = front ++ .release :: more) (first : events j = .take .exclusive :: laterJ)
    (second : events k = .take .exclusive :: laterK) :
    ∃ schedule w, Run.exec step (start events) schedule = some w ∧
      w.holds j = some .exclusive ∧ w.holds k = some .exclusive := by
  -- the party is back outside, another enters, the spare release lets the third in
  let w : Parties ι := ⟨.heldBy none, Function.update (fun _ => none) i none,
    Function.update events i (.release :: more)⟩
  let w₁ := w.done j (.take .exclusive) laterJ ⟨0, true⟩
  let w₂ := w₁.done i .release more ⟨0, false⟩
  have outside : Run.exec step (start events) (List.replicate front.length i) = some w :=
    exec_alone rfl spare paired
  have enters : w.step j = some w₁ := step_eq (by simp [w, ji, first]) rfl
  have spared : w₁.step i = some w₂ := step_eq (by simp [w₁, w, ji.symm]) rfl
  have meets : w₂.step k = some (w₂.done k (.take .exclusive) laterK ⟨0, true⟩) :=
    step_eq (by simp [w₂, w₁, w, ki, jk.symm, second]) rfl
  refine ⟨List.replicate front.length i ++ [j, i, k],
    w₂.done k (.take .exclusive) laterK ⟨0, true⟩, ?_, ?_, by simp [LockEvent.after]⟩
  · rw [Run.exec_append, outside, Option.bind_some, Run.exec, enters, Option.bind_some, Run.exec,
      spared, Option.bind_some, Run.exec, meets, Option.bind_some, Run.exec]
  · simp [w₂, w₁, jk, ji, LockEvent.after]

end Parties

end Dwframe.Lib
