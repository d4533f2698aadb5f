import Dwframe.Timer.Deadline
import Dwframe.Lib.Monad
import Mathlib.Order.Lattice.Nat
import Mathlib.Algebra.Order.Monoid.Unbundled.WithTop

/-!
# Wake-ups

The thread that polls sleeps for the time `getNextTimer` returned, so a deadline that becomes the
earliest after that call has to wake it: `addtimer` and `reset` call `onTimerInsertedAtFront`
unless the flag says that a wake-up is under way. `refresh` and the re-arming in `listExpiredCb`
insert without it. They move a deadline to the clock plus the delay, and with a clock that does
not go back that is never earlier than where it was.
-/
namespace Dwframe.TimerManager

open Lib Lib.Run

variable {κ φ ω : Type}

/-- The earliest deadline in the set, infinity if there is none. -/
def earliest (s : TimerManager κ) : WithTop Nat :=
  (s.timers.map fun addr => ((s.nextOf addr).toNat : WithTop Nat)).foldr min ⊤

/-- A manager with its clock, and what the latest `getNextTimer` saw: the earliest deadline and
how often `onTimerInsertedAtFront` had been called. -/
structure Watched (φ ω : Type) where
  clocked : Clocked φ ω
  clock : Nat
  polled : Option (WithTop Nat × Nat)

/-- The clock value a request reads. -/
def Request.reading : Request φ ω → Option UInt64
  | .call (.addtimer now _ _ _ _) => some now
  | .call (.addConditionTimer now _ _ _ _ _) => some now
  | .call (.refresh now _) => some now
  | .call (.reset now _ _ from_now) => if from_now then some now else none
  | .call (.listExpiredCb now _) => some now
  | .call (.cancel _) => none
  | .call (.release _) => none
  | .getNextTimer now => some now

namespace Watched

def initial : Watched φ ω := ⟨.initial, 0, none⟩

abbrev manager (w : Watched φ ω) : TimerManager (Callback φ ω) := w.clocked.manager

def step (w : Watched φ ω) (request : Request φ ω) : Except TimerFault (Watched φ ω) := do
  let clocked ← w.clocked.step request
  let clock := (request.reading.map UInt64.toNat).getD w.clock
  match request with
  | .getNextTimer _ =>
    .ok ⟨clocked, clock, some (clocked.manager.earliest, clocked.manager.fronts)⟩
  | .call _ => .ok ⟨clocked, clock, w.polled⟩

/-- The deadlines a request arms are below `2^32`. -/
def Bounded (c : Clocked φ ω) : Request φ ω → Prop
  | .call (.listExpiredCb now probe) => ∀ addr ∈ c.manager.expired now probe, ∀ arming,
    c.schedule addr = some arming → arming.recurring = true → now.toNat + arming.delay < 2 ^ 32
  | request => c.Fits request

/-- The clock does not go back, and the deadlines are below `2^32`. -/
structure Permitted (w : Watched φ ω) (request : Request φ ω) : Prop where
  handles : w.clocked.Permitted request
  clock : ∀ now, request.reading = some now → w.clock ≤ now.toNat
  deadlines : Bounded w.clocked request

/-- If the earliest deadline is earlier than at the latest `getNextTimer`, the thread that polls
has been woken since then, and the flag says so. -/
def Woken (w : Watched φ ω) : Prop :=
  ∀ seen fronts, w.polled = some (seen, fronts) → w.manager.earliest < seen →
    w.manager.tickled = true ∧ fronts < w.manager.fronts

end Watched

/-! ### What a call signals -/

/-- Every deadline of `after` is preceded by one of `before`. -/
def NoEarlier (before after : Schedule) : Prop :=
  ∀ addr arming, after addr = some arming → ∃ other arming', before other = some arming' ∧
    arming'.deadline ≤ arming.deadline

/-- A call wakes the poller, or leaves the flag alone; then either the flag was set or no deadline
has become the earliest. -/
def Signals (s s' : TimerManager κ) (before after : Schedule) : Prop :=
  (s'.tickled = true ∧ s'.fronts = s.fronts + 1) ∨
    (s'.tickled = s.tickled ∧ s'.fronts = s.fronts ∧
      (s.tickled = true ∨ NoEarlier before after))

section Calls

variable {s s' : TimerManager κ} {schedule schedule' : Schedule}

theorem foldr_min_lt {values : List (WithTop Nat)} {bound : WithTop Nat} :
    values.foldr min ⊤ < bound ↔ ∃ v ∈ values, v < bound := by
  induction values with
  | nil => simp
  | cons v rest ih => simp [ih]

/-- The set holds the armed deadlines. -/
theorem Tracks.earliest_lt (tracks : Tracks s schedule) {bound : WithTop Nat} :
    s.earliest < bound ↔
      ∃ addr arming, schedule addr = some arming ∧ (arming.deadline : WithTop Nat) < bound := by
  rw [TimerManager.earliest, foldr_min_lt]
  simp only [List.mem_map, exists_exists_and_eq_and]
  constructor
  · rintro ⟨addr, inside, lower⟩
    obtain ⟨arming, scheduled⟩ := Option.isSome_iff_exists.mp ((tracks.armed addr).mp inside)
    rw [tracks.nextOf scheduled] at lower
    exact ⟨addr, arming, scheduled, lower⟩
  · rintro ⟨addr, arming, scheduled, lower⟩
    refine ⟨addr, (tracks.armed addr).mpr (by simp [scheduled]), ?_⟩
    rw [tracks.nextOf scheduled]
    exact lower

/-- A schedule without earlier deadlines does not move the earliest one forward. -/
theorem Tracks.earliest_mono (tracks : Tracks s schedule) (tracks' : Tracks s' schedule')
    (noEarlier : NoEarlier schedule schedule') : s.earliest ≤ s'.earliest := by
  by_contra earlier
  obtain ⟨addr, arming, scheduled, lower⟩ := tracks'.earliest_lt.mp (not_le.mp earlier)
  obtain ⟨other, arming', held, before⟩ := noEarlier addr arming scheduled
  -- the deadline that came earlier has one before it that was there all the time
  have reached : s.earliest < s.earliest := by
    refine tracks.earliest_lt.mpr ⟨other, arming', held, lt_of_le_of_lt ?_ lower⟩
    exact WithTop.coe_le_coe.mpr before
  exact absurd reached (lt_irrefl _)

theorem NoEarlier.refl (schedule : Schedule) : NoEarlier schedule schedule :=
  fun addr arming scheduled => ⟨addr, arming, scheduled, Nat.le_refl _⟩

/-- An entry that is removed or put off. -/
theorem NoEarlier.update {addr : Nat} {change : Option Arming}
    (later : ∀ arming, change = some arming → ∃ arming', schedule addr = some arming' ∧
      arming'.deadline ≤ arming.deadline) :
    NoEarlier schedule (Function.update schedule addr change) := by
  intro a arming scheduled
  by_cases same : a = addr
  · subst same
    rw [Function.update_self] at scheduled
    obtain ⟨arming', held, before⟩ := later arming scheduled
    exact ⟨a, arming', held, before⟩
  · rw [Function.update_of_ne same] at scheduled
    exact ⟨a, arming, scheduled, Nat.le_refl _⟩

/-- `addTimer` wakes the poller when the timer it inserts is the first one. -/
theorem addTimer_signals {addr : Nat} {arming : Arming}
    (tracks : Tracks (s.addTimer addr) (Function.update schedule addr (some arming))) :
    Signals s (s.addTimer addr) schedule (Function.update schedule addr (some arming)) := by
  by_cases at_front : (s.insert addr).timers.head? = some addr ∧ (!s.tickled) = true
  · left
    -- the only branch that calls `onTimerInsertedAtFront`
    have woken : s.addTimer addr =
        { s.insert addr with tickled := true, fronts := s.fronts + 1 } := if_pos at_front
    rw [woken]
    exact ⟨rfl, rfl⟩
  · right
    have quiet : s.addTimer addr = s.insert addr := if_neg at_front
    rw [quiet] at tracks ⊢
    refine ⟨rfl, rfl, ?_⟩
    by_cases tickled : s.tickled = true
    · exact Or.inl tickled
    right
    -- another timer is in front of it, and that one was there before
    have behind : (s.insert addr).timers.head? ≠ some addr := by
      intro front
      exact at_front ⟨front, by simp [tickled]⟩
    intro a due scheduled
    obtain ⟨-, -, -, inside, -⟩ := tracks.live scheduled
    cases head : (s.insert addr).timers with
    | nil =>
      rw [head] at inside
      simp at inside
    | cons first rest =>
      rw [head, List.head?_cons, ne_eq, Option.some.injEq] at behind
      obtain ⟨least, at_first⟩ := Option.isSome_iff_exists.mp
        ((tracks.armed first).mp (by rw [head]; exact List.mem_cons_self))
      refine ⟨first, least, ?_, tracks.earliest head at_first a due scheduled⟩
      rwa [Function.update_of_ne behind] at at_first

/-- The flag and the count of wake-ups. -/
def SameFlags (s s' : TimerManager κ) : Prop := s'.tickled = s.tickled ∧ s'.fronts = s.fronts

/-- A call without a wake-up makes no deadline the earliest. -/
theorem Signals.quiet (same : SameFlags s s') (noEarlier : NoEarlier schedule schedule') :
    Signals s s' schedule schedule' :=
  Or.inr ⟨same.1, same.2, Or.inr noEarlier⟩

theorem setNext_flags {addr : Nat} {next : UInt32} (ran : s.setNext addr next = .ok s') :
    SameFlags s s' := by
  simp only [setNext] at ran
  obtain ⟨timer, -, ran⟩ := bind_eq_ok.mp ran
  split at ran
  next => cases ran
  next =>
    cases ran
    exact ⟨rfl, rfl⟩

theorem erase_flags {it : Option Nat} (ran : s.erase it = .ok s') : SameFlags s s' := by
  cases it with
  | none => cases ran
  | some addr =>
    cases ran
    exact ⟨rfl, rfl⟩

theorem cancel_flags {addr : Nat} {cancelled : Bool} (ran : s.cancel addr = .ok (cancelled, s')) :
    SameFlags s s' := by
  simp only [cancel] at ran
  obtain ⟨timer, -, ran⟩ := bind_eq_ok.mp ran
  split at ran
  next =>
    obtain ⟨mid, erased, result⟩ := bind_eq_ok.mp ran
    cases result
    have flags := erase_flags erased
    exact ⟨flags.1, flags.2⟩
  next =>
    cases ran
    exact ⟨rfl, rfl⟩

theorem refresh_flags {now : UInt64} {addr : Nat} {refreshed : Bool}
    (ran : s.refresh now addr = .ok (refreshed, s')) : SameFlags s s' := by
  simp only [refresh] at ran
  obtain ⟨timer, -, ran⟩ := bind_eq_ok.mp ran
  split at ran
  next =>
    cases ran
    exact ⟨rfl, rfl⟩
  next =>
    split at ran
    next =>
      cases ran
      exact ⟨rfl, rfl⟩
    next =>
      obtain ⟨mid, erased, ran⟩ := bind_eq_ok.mp ran
      obtain ⟨last, assigned, result⟩ := bind_eq_ok.mp ran
      cases result
      have first := erase_flags erased
      have second := setNext_flags assigned
      exact ⟨second.1.trans first.1, second.2.trans first.2⟩

theorem getNextTimer_flag {now ms : UInt64} (ran : s.getNextTimer now = .ok (ms, s')) :
    s'.tickled = false := by
  simp only [getNextTimer] at ran
  split at ran
  next =>
    cases ran
    rfl
  next =>
    obtain ⟨next, -, ran⟩ := bind_eq_ok.mp ran
    split at ran
    next =>
      cases ran
      rfl
    next =>
      cases ran
      rfl

theorem fire_flags {now : UInt64} {out : List Nat} {cbs : List (Option κ)}
    (ran : fire now out s = .ok (cbs, s')) : SameFlags s s' := by
  induction out generalizing s cbs with
  | nil =>
    cases ran
    exact ⟨rfl, rfl⟩
  | cons addr rest ih =>
    simp only [fire] at ran
    obtain ⟨timer, -, ran⟩ := bind_eq_ok.mp ran
    split at ran
    next =>
      obtain ⟨set, assigned, ran⟩ := bind_eq_ok.mp ran
      obtain ⟨mid, inserted, ran⟩ := bind_eq_ok.mp ran
      cases inserted
      obtain ⟨⟨later, last⟩, fired, result⟩ := bind_eq_ok.mp ran
      cases result
      have first := setNext_flags assigned
      have others := ih fired
      exact ⟨others.1.trans first.1, others.2.trans first.2⟩
    next =>
      obtain ⟨mid, disarmed, ran⟩ := bind_eq_ok.mp ran
      cases disarmed
      obtain ⟨⟨later, last⟩, fired, result⟩ := bind_eq_ok.mp ran
      cases result
      have others := ih fired
      exact ⟨others.1, others.2⟩

theorem listExpiredCb_flags {now : UInt64} {probe : Nat} {cbs : List (Option κ)}
    (ran : s.listExpiredCb now probe = .ok (cbs, s')) : SameFlags s s' := by
  unfold listExpiredCb at ran
  split at ran
  next =>
    cases ran
    exact ⟨rfl, rfl⟩
  next =>
    have flags := fire_flags ran
    exact ⟨flags.1, flags.2⟩

theorem addtimer_signals (tracks : Tracks s schedule) {now : UInt64} {addr : Nat}
    (fresh : s.object addr = none) {ms : UInt64} (fits : now.toNat + ms.toNat < 2 ^ 32)
    {cb : Option κ} (non_null : cb.isSome = true) (recurring : Bool) :
    Signals s (s.addtimer now addr ms cb recurring) schedule
      (Function.update schedule addr (some ⟨now.toNat, ms.toNat, recurring⟩)) :=
  addTimer_signals (addtimer_tracks tracks fresh fits non_null recurring)

/-- Inserting a timer that is in the set changes nothing. -/
theorem insert_self (ordered : Ordered s) {addr : Nat} (inside : addr ∈ s.timers) :
    s.insert addr = s := by
  rw [TimerManager.insert, OrderedSet.insert_of_mem ordered.sorted inside]

/-- `reset` signals what its `addTimer` does: the second insertion finds the timer there. -/
theorem reset_signals (tracks : Tracks s schedule) {now : UInt64} {addr : Nat} {timer : Timer κ}
    (found : s.object addr = some timer) {ms : UInt64} {from_now changed : Bool}
    (tracks' : Tracks s' (Function.update schedule addr ((schedule addr).map fun arming =>
      { arming with
        start := if from_now then now.toNat else arming.start
        delay := ms.toNat })))
    (ran : s.reset now addr ms from_now = .ok (changed, s')) :
    Signals s s' schedule (Function.update schedule addr ((schedule addr).map fun arming =>
      { arming with
        start := if from_now then now.toNat else arming.start
        delay := ms.toNat })) := by
  by_cases armed : timer.cb.isSome = true
  · obtain ⟨arming, scheduled, holds⟩ := tracks.scheduled found armed
    -- `reset` returns at once when nothing would change
    by_cases same : ms = timer.ms ∧ (!from_now) = true
    · simp only [reset, deref, found, bind, Except.bind, if_pos same] at ran
      cases ran
      apply Signals.quiet ⟨rfl, rfl⟩
      apply NoEarlier.update
      intro arming' changed
      rw [scheduled, Option.map_some, Option.some.injEq] at changed
      subst changed
      obtain ⟨rfl, kept⟩ := same
      have kept : from_now = false := by simpa using kept
      subst kept
      exact ⟨arming, scheduled, by simp [Arming.deadline, holds.ms]⟩
    · rw [reset_eq tracks.ordered now found armed same] at ran
      obtain ⟨inside, -⟩ := tracks.ordered.find_armed found armed
      -- the timer is out of the set, gets its new times and is inserted by `addTimer`
      have back := (((tracks.ordered.take_out inside).store_out (List.mem_singleton.mpr rfl)
        { timer with ms := ms } armed).store_out (List.mem_singleton.mpr rfl)
          { timer with ms := ms, next := (resetStart now timer from_now + ms).toUInt32 }
            armed).addTimer (List.mem_singleton.mpr rfl)
      rw [List.erase_cons_head] at back
      rw [insert_self back.1 back.2] at ran
      cases ran
      rw [scheduled] at tracks' ⊢
      exact addTimer_signals tracks'
  · have null : timer.cb = none := by simpa using armed
    -- a timer without a callback is not in the set
    have unchanged : s' = s := by
      simp only [reset, deref, found, bind, Except.bind, null, Option.isNone_none, if_true] at ran
      split at ran <;> cases ran <;> rfl
    rw [tracks.update_unarmed found armed, unchanged]
    exact Signals.quiet ⟨rfl, rfl⟩ (NoEarlier.refl schedule)

end Calls

/-! ### Runs -/

namespace Watched

/-- No timer is armed from a time the clock has not reached. -/
def Started (schedule : Schedule) (clock : Nat) : Prop :=
  ∀ addr arming, schedule addr = some arming → arming.start ≤ clock

/-- Arming, and arming again, starts at the clock; nothing else sets a start. -/
theorem Started.after {schedule : Schedule} {clock : Nat} (started : Started schedule clock)
    (returned : List Nat) (call : Call φ ω)
    (forward : ∀ now, (Request.call call).reading = some now → clock ≤ now.toNat) :
    Started (schedule.after returned call)
      (((Request.call call).reading.map UInt64.toNat).getD clock) := by
  have update : ∀ (now : Nat) (addr : Nat) (change : Option Arming), clock ≤ now →
      (∀ arming, change = some arming → arming.start ≤ now) →
      Started (Function.update schedule addr change) now := by
    intro now addr change later at_most a arming scheduled
    by_cases same : a = addr
    · subst same
      rw [Function.update_self] at scheduled
      exact at_most arming scheduled
    · rw [Function.update_of_ne same] at scheduled
      exact Nat.le_trans (started a arming scheduled) later
  -- what a call arms starts at the clock it has read, which is the clock behind it
  cases call with
  | addtimer now addr ms cb recurring =>
    apply update _ addr _ (forward now rfl)
    intro arming armed
    cases armed
    exact Nat.le_refl _
  | addConditionTimer now addr ms cb weak_cond recurring =>
    apply update _ addr _ (forward now rfl)
    intro arming armed
    cases armed
    exact Nat.le_refl _
  | cancel addr =>
    apply update _ addr _ (Nat.le_refl clock)
    intro arming armed
    cases armed
  | refresh now addr =>
    apply update _ addr _ (forward now rfl)
    intro arming armed
    obtain ⟨before, -, rfl⟩ := Option.map_eq_some_iff.mp armed
    exact Nat.le_refl _
  | reset now addr ms from_now =>
    cases from_now with
    | true =>
      apply update _ addr _ (forward now rfl)
      intro arming armed
      obtain ⟨before, -, rfl⟩ := Option.map_eq_some_iff.mp armed
      exact Nat.le_refl _
    | false =>
      -- the old start stays, and no clock is read
      apply update _ addr _ (Nat.le_refl clock)
      intro arming armed
      obtain ⟨before, scheduled, rfl⟩ := Option.map_eq_some_iff.mp armed
      exact started addr before scheduled
  | listExpiredCb now probe =>
    intro addr arming scheduled
    have later := forward now rfl
    simp only [Schedule.after] at scheduled
    split at scheduled
    next =>
      obtain ⟨before, -, rearmed⟩ := Option.bind_eq_some_iff.mp scheduled
      split at rearmed
      next =>
        cases rearmed
        exact Nat.le_refl _
      next => cases rearmed
    next => exact Nat.le_trans (started addr arming scheduled) later
  | release addr => exact started

/-- A call returns, and wakes the poller when it makes a deadline the earliest. -/
theorem call_signals {c : Clocked φ ω} (tracked : c.Tracked) (call : Call φ ω)
    (permitted : c.Permitted (.call call)) (bounded : Bounded c (.call call))
    (started : ∀ now, (Request.call call).reading = some now → Started c.schedule now.toNat) :
    ∃ manager, perform c.manager call = .ok manager ∧
      Tracks manager (c.schedule.after (c.returned call) call) ∧
      Signals c.manager manager c.schedule (c.schedule.after (c.returned call) call) := by
  cases call with
  | addtimer now addr ms cb recurring =>
    exact ⟨_, rfl, addtimer_tracks tracked permitted bounded rfl recurring,
      addtimer_signals tracked permitted bounded rfl recurring⟩
  | addConditionTimer now addr ms cb weak_cond recurring =>
    exact ⟨_, rfl, addtimer_tracks tracked permitted bounded rfl recurring,
      addtimer_signals tracked permitted bounded rfl recurring⟩
  | cancel addr =>
    obtain ⟨timer, found⟩ := Option.isSome_iff_exists.mp permitted
    obtain ⟨cancelled, manager, ran, tracks⟩ := cancel_tracks tracked found
    refine ⟨manager, by simp only [perform, ran, Except.map], tracks, ?_⟩
    apply Signals.quiet (cancel_flags ran)
    apply NoEarlier.update
    intro arming armed
    cases armed
  | refresh now addr =>
    obtain ⟨timer, found⟩ := Option.isSome_iff_exists.mp permitted
    obtain ⟨refreshed, manager, ran, tracks⟩ := refresh_tracks tracked found bounded
    refine ⟨manager, by simp only [perform, ran, Except.map], tracks, ?_⟩
    apply Signals.quiet (refresh_flags ran)
    apply NoEarlier.update
    -- the same delay from a later start
    intro arming armed
    obtain ⟨before, scheduled, rfl⟩ := Option.map_eq_some_iff.mp armed
    refine ⟨before, scheduled, ?_⟩
    exact Nat.add_le_add_right (started now rfl addr before scheduled) _
  | reset now addr ms from_now =>
    obtain ⟨timer, found⟩ := Option.isSome_iff_exists.mp permitted
    obtain ⟨changed, manager, ran, tracks⟩ := reset_tracks tracked found bounded
    exact ⟨manager, by simp only [perform, ran, Except.map], tracks,
      reset_signals tracked found tracks ran⟩
  | listExpiredCb now probe =>
    obtain ⟨cbs, manager, ran, -, tracks⟩ := listExpiredCb_rearms tracked permitted bounded
    refine ⟨manager, by simp only [perform, ran, Except.map], tracks, ?_⟩
    -- a recurring timer is armed again from the clock, one that has not expired stays
    apply Signals.quiet (listExpiredCb_flags ran)
    intro addr arming scheduled
    simp only [Schedule.after] at scheduled
    split at scheduled
    next =>
      obtain ⟨before, held, rearmed⟩ := Option.bind_eq_some_iff.mp scheduled
      split at rearmed
      next =>
        cases rearmed
        exact ⟨addr, before, held, Nat.add_le_add_right (started now rfl addr before held) _⟩
      next => cases rearmed
    next => exact ⟨addr, arming, scheduled, Nat.le_refl _⟩
  | release addr =>
    exact ⟨_, rfl, release_tracks tracked permitted,
      Signals.quiet ⟨rfl, rfl⟩ (NoEarlier.refl c.schedule)⟩

/-- What carries the property along a run: while the flag is down, nothing is earlier than what
the latest `getNextTimer` saw, and the flag has been raised since then if it is up. -/
structure Wakeful (w : Watched φ ω) : Prop where
  tracked : w.clocked.Tracked
  started : Started w.clocked.schedule w.clock
  counted : ∀ seen fronts, w.polled = some (seen, fronts) → fronts ≤ w.manager.fronts
  raised : ∀ seen fronts, w.polled = some (seen, fronts) → w.manager.tickled = true →
    fronts < w.manager.fronts
  quiet : ∀ seen fronts, w.polled = some (seen, fronts) → w.manager.tickled = true ∨
    seen ≤ w.manager.earliest

theorem Wakeful.woken {w : Watched φ ω} (wakeful : w.Wakeful) : w.Woken := by
  intro seen fronts polled earlier
  rcases wakeful.quiet seen fronts polled with tickled | notEarlier
  · exact ⟨tickled, wakeful.raised seen fronts polled tickled⟩
  · exact absurd earlier (not_lt.mpr notEarlier)

theorem initial_wakeful : (initial : Watched φ ω).Wakeful where
  tracked := tracks_empty
  started := by
    intro addr arming scheduled
    cases scheduled
  counted := by
    intro seen fronts polled
    cases polled
  raised := by
    intro seen fronts polled
    cases polled
  quiet := by
    intro seen fronts polled
    cases polled

theorem Wakeful.step {w : Watched φ ω} (wakeful : w.Wakeful) (request : Request φ ω)
    (permitted : w.Permitted request) : ∃ w', w.step request = .ok w' ∧ w'.Wakeful := by
  cases request with
  | getNextTimer now =>
    obtain ⟨ms, manager, ran, tracks, -⟩ := getNextTimer_tracks wakeful.tracked now
    refine ⟨⟨⟨manager, w.clocked.schedule⟩, now.toNat, some (manager.earliest, manager.fronts)⟩,
      ?_, tracks, ?_, ?_, ?_, ?_⟩
    · simp [Watched.step, Clocked.step, ran, bind, Except.bind, Request.reading]
    · intro addr arming scheduled
      exact Nat.le_trans (wakeful.started addr arming scheduled) (permitted.clock now rfl)
    · intro seen fronts polled
      cases polled
      exact Nat.le_refl _
    -- the poll lowers the flag and sees the earliest deadline itself
    · intro seen fronts polled tickled
      rw [getNextTimer_flag ran] at tickled
      cases tickled
    · intro seen fronts polled
      cases polled
      exact Or.inr (le_refl _)
  | call call =>
    have started : ∀ now, (Request.call call).reading = some now →
        Started w.clocked.schedule now.toNat := by
      intro now reads addr arming scheduled
      exact Nat.le_trans (wakeful.started addr arming scheduled) (permitted.clock now reads)
    obtain ⟨manager, ran, tracks, signals⟩ :=
      call_signals wakeful.tracked call permitted.handles permitted.deadlines started
    refine ⟨⟨⟨manager, w.clocked.schedule.after (w.clocked.returned call) call⟩,
      ((Request.call call).reading.map UInt64.toNat).getD w.clock, w.polled⟩, ?_, tracks,
      wakeful.started.after _ call permitted.clock, ?_, ?_, ?_⟩
    · simp only [Watched.step, Clocked.step, ran, bind, Except.bind]
    · intro seen fronts polled
      have before := wakeful.counted seen fronts polled
      rcases signals with ⟨-, more⟩ | ⟨-, same, -⟩
      · exact more ▸ Nat.le_succ_of_le before
      · exact same ▸ before
    · intro seen fronts polled tickled
      rcases signals with ⟨-, more⟩ | ⟨flag, same, -⟩
      -- the call that raises the flag is itself a wake-up since the poll
      · exact more ▸ Nat.lt_succ_of_le (wakeful.counted seen fronts polled)
      · exact same ▸ wakeful.raised seen fronts polled (flag ▸ tickled)
    · intro seen fronts polled
      rcases signals with ⟨tickled, -⟩ | ⟨flag, -, up | noEarlier⟩
      · exact Or.inl tickled
      · exact Or.inl (flag.trans up)
      -- with the flag down, a call without a wake-up brings nothing earlier than before
      · rcases wakeful.quiet seen fronts polled with tickled | notEarlier
        · exact Or.inl (flag.trans tickled)
        · exact Or.inr (le_trans notEarlier (wakeful.tracked.earliest_mono tracks noEarlier))

/-- With a clock that does not go back and deadlines below `2^32`, in every run no call fails, and
if a deadline is earlier than all there were at the latest `getNextTimer`, then the flag is set
and `onTimerInsertedAtFront` has been called since. -/
theorem idle_woken (requests : List (Request φ ω))
    (legal : Legal step Permitted initial requests) :
    ∃ w, calls step (initial : Watched φ ω) requests = .ok w ∧ w.Woken := by
  obtain ⟨w, ran, wakeful⟩ := calls_safe Wakeful (fun _ request wakeful permitted =>
    wakeful.step request permitted) initial_wakeful legal
  exact ⟨w, ran, wakeful.woken⟩

/-- A timer due at 30, a poll, and then a timer due at 17 that the poll has not seen. -/
theorem idle_woken_earlier_timer :
    Legal step Permitted (initial : Watched Unit Unit)
        [.call (.addtimer 10 1 20 () false), .getNextTimer 10,
          .call (.addtimer 12 2 5 () false)] ∧
      ∃ w, calls step (initial : Watched Unit Unit)
        [.call (.addtimer 10 1 20 () false), .getNextTimer 10,
          .call (.addtimer 12 2 5 () false)] = .ok w ∧ w.Woken := by
  have legal : Legal step Permitted (initial : Watched Unit Unit)
      [.call (.addtimer 10 1 20 () false), .getNextTimer 10,
        .call (.addtimer 12 2 5 () false)] := by
    have first : (10 : UInt64).toNat + (20 : UInt64).toNat < 2 ^ 32 := by decide
    have second : (12 : UInt64).toNat + (5 : UInt64).toNat < 2 ^ 32 := by decide
    refine ⟨⟨rfl, ?_, first⟩, fun w₁ h₁ => ?_⟩
    · rintro now reads
      exact Nat.zero_le _
    cases h₁
    refine ⟨⟨trivial, ?_, trivial⟩, fun w₂ h₂ => ?_⟩
    · rintro now reads
      cases reads
      exact Nat.le_refl _
    cases h₂
    refine ⟨⟨rfl, ?_, second⟩, fun _ _ => trivial⟩
    rintro now reads
    cases reads
    decide
  exact ⟨legal, idle_woken _ legal⟩

end Watched

end Dwframe.TimerManager
