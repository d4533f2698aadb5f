import Dwframe.Hook.Protocol

/-!
# Who wakes a parked fiber

`Settled` is what holds of a fiber from its registration on: it is queued, or registered
with nobody having taken its timeout yet. Every step keeps it: releasing the event
queues the fiber, and the callback of a timeout releases the event. What can break the
chain is the time before the registration. The timer is armed first, so its callback
may find nothing to cancel; the fiber then registers and parks with its only timeout
spent.
-/
namespace Dwframe.Hooked

variable {φ : Type} {s s' : Hooked φ}

/-! ### Names -/

def callOf (s : Hooked φ) (f : φ) : Option IoCall := (s.waits f).map Wait.call

theorem callOf_of_waits {f : φ} {wait : Wait} (found : s.waits f = some wait) :
    s.callOf f = some wait.call := by
  rw [callOf, found]
  rfl

/-- Every `timer_info` belongs to one call, and a timer knows its call. -/
structure Ids (s : Hooked φ) : Prop where
  fresh : ∀ f c, s.callOf f = some c → c.info < s.infos
  unique : ∀ f g c d, s.callOf f = some c → s.callOf g = some d → c.info = d.info → f = g
  bound : ∀ t, s.timerCount ≤ t → s.timers t = none
  old : ∀ t r, s.timers t = some r → r.call.info < s.infos
  captured : ∀ t r f c, s.timers t = some r → s.callOf f = some c → r.call.info = c.info →
    r.owner = f ∧ r.call = c

/-- A step that enters no call and adds no timer. -/
theorem Ids.keep (ids : s.Ids) (calls : ∀ f c, s'.callOf f = some c → s.callOf f = some c)
    (timers : ∀ t r', s'.timers t = some r' →
      ∃ r, s.timers t = some r ∧ r.owner = r'.owner ∧ r.call = r'.call)
    (infos : s'.infos = s.infos) (count : s'.timerCount = s.timerCount) : s'.Ids := by
  constructor
  · intro f c there
    rw [infos]
    exact ids.fresh f c (calls f c there)
  · intro f g c d first second
    exact ids.unique f g c d (calls f c first) (calls g d second)
  · intro t above
    rw [count] at above
    cases there : s'.timers t with
    | none => rfl
    | some r' =>
      obtain ⟨r, before, -, -⟩ := timers t r' there
      rw [ids.bound t above] at before
      cases before
  · intro t r' there
    obtain ⟨r, before, -, call⟩ := timers t r' there
    rw [infos, ← call]
    exact ids.old t r before
  · intro t r' f c there named same
    obtain ⟨r, before, owner, call⟩ := timers t r' there
    rw [← owner, ← call]
    exact ids.captured t r f c before (calls f c named) (call ▸ same)

/-! ### The invariant of one fiber -/

/-- A timer of this wait, and what its status may be. -/
def TimerOf (s : Hooked φ) (wait : Wait) (status : TimerStatus → Prop) : Prop :=
  ∀ t ∈ wait.timer, ∃ r, s.timers t = some r ∧ r.call = wait.call ∧ status r.status

/-- From the registration on. -/
def Settled (s : Hooked φ) (f : φ) (wait : Wait) : Prop :=
  s.Queued f ∨ (s.Registered f wait.call ∧ s.cacelled wait.call.info = false ∧
    s.TimerOf wait fun status => status ≠ .ran)

def Safe (s : Hooked φ) (f : φ) (wait : Wait) : Prop :=
  match wait.stage with
  | .wantEvent =>
    s.TimerOf wait fun status => status = .ran → s.cacelled wait.call.info = true
  | .wantYield => s.Settled f wait
  | .parked => s.Settled f wait
  | _ => True

/-- What a step leaves to a fiber that does not take it. -/
structure Leaves (s s' : Hooked φ) (f : φ) (wait : Wait) : Prop where
  queued : s.Queued f → s'.Queued f
  registered : s.Registered f wait.call → s'.Registered f wait.call ∨ s'.Queued f
  flag : s'.cacelled wait.call.info = s.cacelled wait.call.info
  timers : ∀ t r, s.timers t = some r → r.call = wait.call →
    ∃ r', s'.timers t = some r' ∧ r'.call = wait.call ∧ (r'.status = .ran → r.status = .ran)

theorem Leaves.timerOf {f : φ} {wait : Wait} (leaves : s.Leaves s' f wait)
    {p q : TimerStatus → Prop} (before : s.TimerOf wait p)
    (weaken : ∀ a b, p a → (b = .ran → a = .ran) → q b) : s'.TimerOf wait q := by
  intro t mine
  obtain ⟨r, there, call, held⟩ := before t mine
  obtain ⟨r', there', call', back⟩ := leaves.timers t r there call
  exact ⟨r', there', call', weaken _ _ held back⟩

theorem Leaves.settled {f : φ} {wait : Wait} (leaves : s.Leaves s' f wait)
    (settled : s.Settled f wait) : s'.Settled f wait := by
  rcases settled with queued | ⟨registered, flag, timers⟩
  · exact .inl (leaves.queued queued)
  · -- an event that is no longer registered has been released, with its fiber queued
    rcases leaves.registered registered with still | queued
    · refine .inr ⟨still, leaves.flag.trans flag, leaves.timerOf timers ?_⟩
      exact fun a b notRan back ran => notRan (back ran)
    · exact .inl queued

theorem Leaves.safe {f : φ} {wait : Wait} (leaves : s.Leaves s' f wait) (safe : s.Safe f wait) :
    s'.Safe f wait := by
  cases stage : wait.stage <;> simp only [Safe, stage] at safe ⊢
  -- before the registration only the flag is tied to the timer
  case wantEvent =>
    apply leaves.timerOf safe
    intro a b held back ran
    rw [leaves.flag]
    exact held (back ran)
  case wantYield => exact leaves.settled safe
  case parked => exact leaves.settled safe

structure Inv (s : Hooked φ) : Prop where
  table : s.manager.Consistent
  ids : s.Ids
  safe : ∀ f wait, s.waits f = some wait → s.Safe f wait

/-- The invariant gives the property. -/
theorem Inv.woken (inv : s.Inv) : s.Woken := by
  intro f wait there parked
  have safe := inv.safe f wait there
  rw [Safe, parked] at safe
  rcases safe with queued | ⟨registered, -, timers⟩
  · exact .inl queued
  · refine .inr ⟨registered, fun t mine => ?_⟩
    obtain ⟨r, found, -, notRan⟩ := timers t mine
    exact ⟨r, found, notRan⟩

/-! ### Steps of the workers -/

/-- Anything that only releases waiters and moves timers along without running them. -/
theorem leaves_of_releases {m : IOManager Unit φ Unit} {fd : Nat} {chosen : Event → Bool}
    (releases : s.manager.Releases m fd chosen) (f : φ) (wait : Wait) :
    s.Leaves { s with manager := m } f wait where
  queued := releases.subset
  registered := releases.keeps
  flag := rfl
  timers _ r there call := ⟨r, there, call, id⟩

theorem dispatch_inv (inv : s.Inv) {m : IOManager Unit φ Unit} {fd : Nat} {mask : BitVec 32}
    {ctl : Bool} (ran : s.manager.dispatch fd mask ctl = .ok m) :
    Inv { s with manager := m } := by
  obtain ⟨chosen, releases⟩ := IOManager.releases_of_dispatch inv.table ran
  refine ⟨releases.consistent, ?_, ?_⟩
  · exact inv.ids.keep (fun _ _ there => there) (fun t r there => ⟨r, there, rfl, rfl⟩) rfl rfl
  · intro f wait there
    exact (leaves_of_releases releases f wait).safe (inv.safe f wait there)

/-- Moving a timer along. -/
theorem Ids.setStatus (ids : s.Ids) {t : Nat} {timer : TimeoutTimer φ}
    (there : s.timers t = some timer) (status : TimerStatus) :
    (s.setStatus t timer status).Ids := by
  refine ids.keep (fun _ _ named => named) ?_ rfl rfl
  intro u r' found
  change Function.update s.timers t (some { timer with status := status }) u = some r' at found
  by_cases same : u = t
  · rw [same, Function.update_self] at found
    cases found
    exact ⟨timer, same ▸ there, rfl, rfl⟩
  · rw [Function.update_of_ne same] at found
    exact ⟨r', found, rfl, rfl⟩

/-- A timer that is not run, or that belongs to another call. -/
theorem leaves_of_setStatus {t : Nat} {timer : TimeoutTimer φ} (there : s.timers t = some timer)
    {status : TimerStatus} (f : φ) {wait : Wait}
    (harmless : timer.call = wait.call → status = .ran → timer.status = .ran) :
    s.Leaves (s.setStatus t timer status) f wait where
  queued := id
  registered := .inl
  flag := rfl
  timers u r found call := by
    change ∃ r', Function.update s.timers t (some { timer with status := status }) u = some r' ∧ _
    by_cases same : u = t
    · rw [same, Function.update_self]
      rw [same, there] at found
      cases found
      exact ⟨_, rfl, call, harmless call⟩
    · rw [Function.update_of_ne same]
      exact ⟨r, found, call, id⟩

theorem expire_inv (inv : s.Inv) {t : Nat} {timer : TimeoutTimer φ}
    (there : s.timers t = some timer) {status : TimerStatus} (notRan : status ≠ .ran) :
    (s.setStatus t timer status).Inv := by
  refine ⟨inv.table, inv.ids.setStatus there status, ?_⟩
  intro f wait found
  exact (leaves_of_setStatus there f fun _ ran => absurd ran notRan).safe (inv.safe f wait found)

/-- The owner of a timer whose callback has run, once the flag is set. -/
private theorem ran_safe {t : Nat} {timer : TimeoutTimer φ} (there : s.timers t = some timer)
    {f : φ} {wait : Wait} (safe : s.Safe f wait)
    (timers : s'.timers = Function.update s.timers t (some { timer with status := .ran }))
    (flag : s'.cacelled wait.call.info = true)
    (settled : s.Settled f wait → s'.Settled f wait) : s'.Safe f wait := by
  cases stage : wait.stage <;> simp only [Safe, stage] at safe ⊢
  case wantEvent =>
    intro u uses
    obtain ⟨r, found, call, -⟩ := safe u uses
    rw [timers]
    by_cases same : u = t
    · rw [same, there] at found
      cases found
      refine ⟨{ timer with status := .ran }, ?_, call, fun _ => flag⟩
      rw [same, Function.update_self]
    · refine ⟨r, ?_, call, fun _ => flag⟩
      rw [Function.update_of_ne same]
      exact found
  case wantYield => exact settled safe
  case parked => exact settled safe

/-- The effect of a callback whose `timer_info` is alive and not flagged. -/
private theorem effective_inv (inv : s.Inv) {t : Nat} {timer : TimeoutTimer φ}
    (there : s.timers t = some timer) {m : IOManager Unit φ Unit}
    (releases : s.manager.Releases m timer.call.fd fun e => decide (e = timer.call.event)) :
    Inv { s.setStatus t timer .ran with
      manager := m
      cacelled := Function.update s.cacelled timer.call.info true } := by
  refine ⟨releases.consistent, (inv.ids.setStatus there .ran).keep (fun _ _ named => named)
    (fun _ r found => ⟨r, found, rfl, rfl⟩) rfl rfl, ?_⟩
  intro f wait found
  change s.waits f = some wait at found
  have safe := inv.safe f wait found
  -- is `f` the fiber this timer was armed for?
  by_cases mine : timer.call.info = wait.call.info
  · obtain ⟨-, call⟩ := inv.ids.captured t timer f wait.call there (callOf_of_waits found) mine
    apply ran_safe there safe rfl (by rw [← mine]; exact Function.update_self ..)
    rintro (queued | ⟨registered, -, -⟩)
    · exact .inl (releases.subset queued)
    · -- the event was registered, so the release queues the fiber
      refine .inl ((releases.keeps registered).resolve_left ?_)
      rw [← call, releases.here]
      simp
  · have moved : s.Leaves (s.setStatus t timer .ran) f wait :=
      leaves_of_setStatus there f fun same => absurd (congrArg IoCall.info same) mine
    refine Leaves.safe ⟨releases.subset, releases.keeps, ?_, moved.timers⟩ safe
    exact Function.update_of_ne (Ne.symm mine) ..

theorem callback_inv (inv : s.Inv) {t : Nat} {timer : TimeoutTimer φ}
    (there : s.timers t = some timer) (ran : s.callback t timer true = some s') : s'.Inv := by
  unfold callback at ran
  split at ran
  next effective =>
    obtain ⟨result, m, cancelled, releases, -⟩ := IOManager.cancelEvent_spec inv.table
      timer.call.fd timer.call.event true
    simp only [cancelled, Option.some.injEq] at ran
    subst ran
    exact effective_inv inv there (by simpa using releases)
  next inert =>
    cases ran
    refine ⟨inv.table, inv.ids.setStatus there .ran, ?_⟩
    intro f wait found
    change s.waits f = some wait at found
    have safe := inv.safe f wait found
    by_cases mine : timer.call.info = wait.call.info
    · -- the call is alive, so the flag had been set before
      obtain ⟨owner, -⟩ := inv.ids.captured t timer f wait.call there (callOf_of_waits found) mine
      have flag : s.cacelled wait.call.info = true := by
        simpa [alive, owner, found, mine] using inert
      refine ran_safe there safe rfl flag ?_
      rintro (queued | ⟨-, clear, -⟩)
      · exact .inl queued
      · rw [flag] at clear
        cases clear
    · refine (leaves_of_setStatus there f ?_).safe safe
      exact fun same => absurd (congrArg IoCall.info same) mine

/-! ### Steps of the fiber itself -/

variable [DecidableEq φ] {f : φ} {wait : Wait}

theorem callOf_setWait (s : Hooked φ) (f g : φ) (new : Option Wait) :
    (s.setWait f new).callOf g = if g = f then new.map Wait.call else s.callOf g := by
  change (Function.update s.waits f new g).map Wait.call = _
  by_cases same : g = f
  · rw [same, Function.update_self, if_pos rfl]
  · rw [Function.update_of_ne same, if_neg same, callOf]

/-- The fiber stays in its call, or returns. -/
theorem Ids.setWait (ids : s.Ids) {new : Option Wait}
    (stays : ∀ w ∈ new, s.callOf f = some w.call) : (s.setWait f new).Ids := by
  refine ids.keep ?_ (fun _ r found => ⟨r, found, rfl, rfl⟩) rfl rfl
  intro g c named
  rw [callOf_setWait] at named
  split at named
  next same =>
    obtain ⟨w, mine, rfl⟩ := Option.map_eq_some_iff.mp named
    rw [same]
    exact stays w mine
  next => exact named

/-- A step of `f` by way of `b`: the others are left alone and `f` is safe where it gets
to. -/
private theorem Inv.step (inv : s.Inv) (b : Hooked φ) {new : Option Wait}
    (waits : b.waits = s.waits) (table : b.manager.Consistent) (ids : (b.setWait f new).Ids)
    (others : ∀ g w, g ≠ f → s.waits g = some w → s.Leaves b g w)
    (mine : ∀ w ∈ new, b.Safe f w) : (b.setWait f new).Inv := by
  refine ⟨table, ids, fun g w found => ?_⟩
  change Function.update b.waits f new g = some w at found
  by_cases same : g = f
  · rw [same, Function.update_self] at found
    rw [same]
    exact mine w found
  · rw [Function.update_of_ne same, waits] at found
    exact (others g w same found).safe (inv.safe g w found)

/-- A step of `f` that touches nothing shared. -/
private theorem Inv.move (inv : s.Inv) (found : s.waits f = some wait) {new : Option Wait}
    (stays : ∀ w ∈ new, w.call = wait.call) (mine : ∀ w ∈ new, s.Safe f w) :
    (s.setWait f new).Inv := by
  refine inv.step s rfl inv.table (inv.ids.setWait fun w there => ?_)
    (fun g w _ _ => ⟨id, .inl, rfl, fun _ r there call => ⟨r, there, call, id⟩⟩) mine
  rw [callOf_of_waits found, stays w there]

omit [DecidableEq φ] in
private theorem Inv.cancelTimer (inv : s.Inv) (timer : Option Nat) :
    (s.cancelTimer timer).Inv ∧ (s.cancelTimer timer).waits = s.waits := by
  unfold Hooked.cancelTimer
  split
  next => exact ⟨inv, rfl⟩
  next t =>
    split
    next record there =>
      split
      · exact ⟨expire_inv inv there (by decide), rfl⟩
      · exact ⟨inv, rfl⟩
    next => exact ⟨inv, rfl⟩

theorem enter_inv (inv : s.Inv) {call : IoCall} (info : call.info = s.infos)
    (entered : s.enter f call = some s') : s'.Inv := by
  unfold enter at entered
  split at entered
  · cases entered
  next outside =>
    cases entered
    have calls : ∀ g c, (if g = f then some call else s.callOf g) = some c →
        (g = f ∧ c = call) ∨ s.callOf g = some c := by
      intro g c named
      split at named
      next same => exact .inl ⟨same, (Option.some.inj named).symm⟩
      next => exact .inr named
    -- the new `timer_info` is younger than every other
    have below := inv.ids.fresh
    refine inv.step { s with
      cacelled := Function.update s.cacelled call.info false
      infos := s.infos + 1 } rfl inv.table ⟨?_, ?_, inv.ids.bound, ?_, ?_⟩ ?_ ?_
    · intro g c named
      rw [callOf_setWait] at named
      rcases calls g c named with ⟨-, rfl⟩ | old
      · exact info ▸ Nat.lt_succ_self _
      · exact Nat.lt_succ_of_lt (below g c old)
    · intro g h c d first second same
      rw [callOf_setWait] at first second
      rcases calls g c first with ⟨rfl, rfl⟩ | old <;>
        rcases calls h d second with ⟨rfl, rfl⟩ | old'
      · rfl
      · have := below h d old'
        omega
      · have := below g c old
        omega
      · exact inv.ids.unique g h c d old old' same
    · intro t r there
      exact Nat.lt_succ_of_lt (inv.ids.old t r there)
    · intro t r g c there named same
      rw [callOf_setWait] at named
      rcases calls g c named with ⟨-, rfl⟩ | old
      · have := inv.ids.old t r there
        omega
      · exact inv.ids.captured t r g c there old same
    · intro g w _ there
      have differ : w.call.info ≠ call.info := by
        have := below g w.call (callOf_of_waits there)
        omega
      refine ⟨id, .inl, ?_, fun _ r there call => ⟨r, there, call, id⟩⟩
      exact Function.update_of_ne differ ..
    · rintro _ ⟨⟩
      trivial

omit [DecidableEq φ] in
/-- Registering an event leaves the registered ones. -/
theorem leaves_of_adds {m : IOManager Unit φ Unit} {fd : Nat} {event : Event}
    {waiter : Unit × Task φ Unit} (adds : s.manager.Adds m fd event waiter) (g : φ) (w : Wait) :
    s.Leaves { s with manager := m } g w where
  queued queued := by
    change ((), Task.fiber g) ∈ m.scheduled
    rw [adds.scheduled]
    exact queued
  registered registered := by
    refine .inl ((adds.others _ _ ?_).trans registered)
    -- the slot was free, so it is not the one of a registered waiter
    rintro ⟨fd_eq, event_eq⟩
    have taken := registered
    rw [Registered, fd_eq, event_eq, adds.free] at taken
    cases taken
  flag := rfl
  timers _ r there call := ⟨r, there, call, id⟩

/-- Arming a timer for the call of `f`. -/
theorem arm_inv (inv : s.Inv) (found : s.waits f = some wait) :
    Inv { s.setWait f (some { wait with stage := .wantEvent, timer := some s.timerCount }) with
      timers := Function.update s.timers s.timerCount (some ⟨f, wait.call, .armed⟩)
      timerCount := s.timerCount + 1 } := by
  have free : s.timers s.timerCount = none := inv.ids.bound _ (Nat.le_refl _)
  have mine := callOf_of_waits found
  have old : ∀ t r, Function.update s.timers s.timerCount (some ⟨f, wait.call, .armed⟩) t = some r →
      (t = s.timerCount ∧ r = ⟨f, wait.call, .armed⟩) ∨ s.timers t = some r := by
    intro t r there
    by_cases same : t = s.timerCount
    · rw [same, Function.update_self] at there
      exact .inl ⟨same, (Option.some.inj there).symm⟩
    · rw [Function.update_of_ne same] at there
      exact .inr there
  have ids : Ids { s with
      timers := Function.update s.timers s.timerCount (some ⟨f, wait.call, .armed⟩)
      timerCount := s.timerCount + 1 } := by
    refine ⟨inv.ids.fresh, inv.ids.unique, ?_, ?_, ?_⟩
    · intro t above
      change s.timerCount + 1 ≤ t at above
      change Function.update s.timers s.timerCount _ t = none
      rw [Function.update_of_ne (by omega)]
      exact inv.ids.bound t (by omega)
    · intro t r there
      rcases old t r there with ⟨-, rfl⟩ | before
      · exact inv.ids.fresh f wait.call mine
      · exact inv.ids.old t r before
    · intro t r g c there named same
      rcases old t r there with ⟨-, rfl⟩ | before
      · -- only this call has the `timer_info` that the new timer captures
        have owner := inv.ids.unique f g wait.call c mine named same
        subst owner
        exact ⟨rfl, Option.some.inj (mine.symm.trans named)⟩
      · exact inv.ids.captured t r g c before named same
  refine inv.step { s with
      timers := Function.update s.timers s.timerCount (some ⟨f, wait.call, .armed⟩)
      timerCount := s.timerCount + 1 } rfl inv.table (ids.setWait ?_) ?_ ?_
  · rintro _ ⟨⟩
    exact mine
  · intro g w _ there
    refine ⟨id, .inl, rfl, fun t r known call => ⟨r, ?_, call, id⟩⟩
    have differ : t ≠ s.timerCount := by
      rintro rfl
      rw [free] at known
      cases known
    exact (Function.update_of_ne differ ..).trans known
  · rintro _ ⟨⟩ t ⟨⟩
    exact ⟨_, Function.update_self .., rfl, by simp⟩

theorem addEvent_inv (inv : s.Inv) (found : s.waits f = some wait) (stage : wait.stage = .wantEvent)
    (clear : s.cacelled wait.call.info = false) {answer : Bool} {rt : Int}
    {m : IOManager Unit φ Unit}
    (ran : s.manager.addEvent ⟨some (), f, true⟩ wait.call.fd wait.call.event none answer =
      .ok (rt, m)) :
    Inv { s.setWait f (some { wait with stage := if rt = 0 then .wantYield else .failed }) with
      manager := m } := by
  have mine := callOf_of_waits found
  have ids : Ids { s with manager := m } :=
    inv.ids.keep (fun _ _ named => named) (fun _ r there => ⟨r, there, rfl, rfl⟩) rfl rfl
  -- `addEvent` returned, so the event was not registered
  have free := IOManager.clear_of_addEvent inv.table ran
  obtain ⟨rt', m', ran', effect⟩ := IOManager.addEvent_spec inv.table ⟨some (), f, true⟩
    wait.call.fd none answer free rfl (fun _ => rfl)
  rw [ran] at ran'
  cases ran'
  refine inv.step { s with manager := m } rfl ?_ (ids.setWait ?_) ?_ ?_
  · cases answer with
    | true => exact effect.2.consistent
    | false => exact effect.2.consistent
  · rintro _ ⟨⟩
    exact mine
  · intro g w _ _
    cases answer with
    | true => exact leaves_of_adds effect.2 g w
    | false =>
      refine ⟨fun queued => ?_, fun registered => .inl ?_, rfl,
        fun _ r there call => ⟨r, there, call, id⟩⟩
      · change ((), Task.fiber g) ∈ m.scheduled
        rw [effect.2.scheduled]
        exact queued
      · exact (effect.2.registered ..).trans registered
  · rintro _ ⟨⟩
    cases answer with
    | false =>
      obtain ⟨rfl, -⟩ := effect
      trivial
    | true =>
      obtain ⟨rfl, adds⟩ := effect
      refine .inr ⟨adds.here, clear, fun t uses => ?_⟩
      have safe := inv.safe f wait found
      simp only [Safe, stage] at safe
      obtain ⟨r, there, call, spent⟩ := safe t uses
      refine ⟨r, there, call, fun ranBefore => ?_⟩
      -- a timeout already taken would have set the flag
      rw [spent ranBefore] at clear
      cases clear

theorem resume_inv (inv : s.Inv) (found : s.waits f = some wait) :
    Inv { s.setWait f (some { wait with stage := .woken }) with
      manager := { s.manager with
        scheduled := s.manager.scheduled.erase ((), Task.fiber f) } } := by
  have mine := callOf_of_waits found
  set manager := { s.manager with scheduled := s.manager.scheduled.erase ((), Task.fiber f) }
  have ids : Ids { s with manager := manager } :=
    inv.ids.keep (fun _ _ named => named) (fun _ r there => ⟨r, there, rfl, rfl⟩) rfl rfl
  refine inv.step { s with manager := manager } rfl
    ⟨inv.table.contexts, inv.table.large, inv.table.count⟩ (ids.setWait ?_) ?_ ?_
  · rintro _ ⟨⟩
    exact mine
  · intro g w other there
    refine ⟨fun queued => ?_, .inl, rfl, fun _ r there call => ⟨r, there, call, id⟩⟩
    -- another fiber keeps its own entry
    exact (List.mem_erase_of_ne (by simpa using other)).mpr queued
  · rintro _ ⟨⟩
    trivial

theorem advance_inv (inv : s.Inv) (found : s.waits f = some wait) {answer : Bool}
    (inTime : wait.stage = .wantEvent → s.cacelled wait.call.info = false)
    (ran : s.advance f wait answer = some s') : s'.Inv := by
  have safe := inv.safe f wait found
  cases stage : wait.stage <;> simp only [advance, stage] at ran
  case trying =>
    cases ran
    refine inv.move found ?_ ?_ <;> cases answer <;> simp [Safe]
  case wantTimer =>
    split at ran
    · cases ran
      exact arm_inv inv found
    · cases ran
      apply inv.move found (by simp)
      simp [Safe, TimerOf]
  case wantEvent =>
    split at ran
    next rt m registered =>
      cases ran
      exact addEvent_inv inv found stage (inTime stage) registered
    next => cases ran
  case failed =>
    cases ran
    obtain ⟨inv', same⟩ := inv.cancelTimer wait.timer
    exact inv'.move (same ▸ found) (by simp) (by simp)
  case wantYield =>
    cases ran
    apply inv.move found (by simp)
    -- parking changes nothing: what held at the registration still holds
    have settled : s.Settled f wait := by simpa only [Safe, stage] using safe
    rintro _ ⟨⟩
    exact settled
  case parked =>
    split at ran
    · cases ran
      exact resume_inv inv found
    · cases ran
  case woken =>
    cases ran
    obtain ⟨inv', same⟩ := inv.cancelTimer wait.timer
    apply inv'.move (same ▸ found) (by simp)
    simp [Safe]
  case check =>
    cases ran
    refine inv.move found ?_ ?_ <;> split <;> simp [Safe]

/-! ### Whole runs -/

theorem step_inv (inv : s.Inv) {a : HookAction φ} (inTime : s.InTime a)
    (stepped : s.step a = some s') : s'.Inv := by
  cases a with
  | doIo f fd event finite => exact enter_inv inv rfl stepped
  | connect f fd finite => exact enter_inv inv rfl stepped
  | advance f answer =>
    obtain ⟨wait, found, ran⟩ := Option.bind_eq_some_iff.mp stepped
    exact advance_inv inv found (inTime wait found) ran
  | expire t =>
    obtain ⟨timer, there, ran⟩ := Option.bind_eq_some_iff.mp stepped
    rw [Option.ite_none_right_eq_some] at ran
    cases ran.2
    exact expire_inv inv there (by decide)
  | callback t ctl =>
    obtain ⟨timer, there, ran⟩ := Option.bind_eq_some_iff.mp stepped
    rw [Option.ite_none_right_eq_some] at ran
    obtain rfl : ctl = true := inTime
    exact callback_inv inv there ran.2
  | dispatch fd mask ctl =>
    simp only [step] at stepped
    split at stepped
    next m ran =>
      cases stepped
      exact dispatch_inv inv ran
    next => cases stepped

omit [DecidableEq φ] in
theorem initial_inv : (initial : Hooked φ).Inv where
  table := IOManager.create_consistent
  ids := ⟨by simp [initial, callOf], by simp [initial, callOf], fun _ _ => rfl, by simp [initial],
    by simp [initial]⟩
  safe f wait found := by simp [initial] at found

/-- In a run where no fiber registers after its timeout was taken and the timeouts'
`epoll_ctl` calls succeed, a parked fiber is queued, or registered with its timeout still
to come. -/
theorem run_woken (actions : List (HookAction φ))
    (inTime : Lib.Run.Along step InTime (initial : Hooked φ) actions)
    (ran : Lib.Run.exec step initial actions = some s) : s.Woken :=
  (Lib.Run.exec_invariant Inv (fun _ _ _ inv inTime stepped => step_inv inv inTime stepped)
    initial_inv inTime ran).woken

/-- A read times out after the fiber has parked, on a descriptor another fiber writes to. -/
theorem run_woken_timeout_after_parking :
    ∃ s : Hooked Nat, s.Queued 0 ∧ s.Woken :=
  ⟨_, List.mem_cons_self, run_woken [.doIo 0 5 .read true, .connect 1 5 true, .advance 0 true,
    .advance 0 true, .advance 0 true, .advance 1 true, .advance 1 true, .advance 0 true,
    .advance 1 true, .advance 1 true, .expire 0, .callback 0 true] (by decide +kernel) rfl⟩

/-- The timer expires and its callback runs before the fiber reaches `addEvent`: it parks
with its event registered, out of every queue, and its timeout spent. -/
theorem timeout_before_registration :
    ∃ s : Hooked Nat, Lib.Run.exec step initial [.doIo 0 5 .read true, .advance 0 true,
        .advance 0 true, .expire 0, .callback 0 true, .advance 0 true, .advance 0 true] = some s ∧
      s.waits 0 = some ⟨⟨5, .read, true, true, 0⟩, .parked, some 0⟩ ∧ s.manager.scheduled = [] ∧
      s.timers 0 = some ⟨0, ⟨5, .read, true, true, 0⟩, .ran⟩ :=
  ⟨_, rfl, rfl, rfl, rfl⟩

end Dwframe.Hooked
