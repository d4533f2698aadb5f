import Dwframe.Fiber.Model
import Dwframe.Lib.Monad
import Dwframe.Lib.Run

/-!
# `t_fiber` and the stack

The thread should be on the stack of the fiber that `t_fiber` names, and the context of every
other fiber should lead to its own stack. One call of `swapcontext` keeps this exactly if it
stores where the thread is in the fiber that is leaving; so `swapIn` is right in the main fiber
of the scheduler alone, `call` in that of the thread, and `swapOut` and `back` on the running
fiber.
-/
namespace Dwframe

open Lib Lib.Run

namespace FiberThread

variable {κ : Type} {s s' : FiberThread κ} {a b c f : Nat} {finished : Bool}

/-- The stacks of a fiber; a main fiber stands for the stack of the thread. -/
def Home (s : FiberThread κ) (f : Nat) : Stack → Prop
  | .thread => s.threadFiber = some f
  | .own g _ => g = f

theorem Home.unique {on : Stack} (one : s.Home a on) (other : s.Home b on) : a = b := by
  cases on with
  | thread => exact Option.some.inj (one.symm.trans other)
  | own g caller => exact one.symm.trans other

/-- What is loaded from a context leads to a stack of `f`. -/
def LeadsHome (s : FiberThread κ) (f : Nat) : Context → Prop
  | .unset | .used => False
  | .entry _ => True
  | .saved on _ => s.Home f on

/-- The thread is on the stack of `c`, and the other fibers wait on theirs. -/
structure Attuned (s : FiberThread κ) (c : Nat) : Prop where
  live : (s.fibers c).isSome
  home : s.Home c s.running
  others : ∀ f fiber, s.fibers f = some fiber → f ≠ c → s.LeadsHome f fiber.ctx
  thread : ∃ t, s.threadFiber = some t ∧ (s.fibers t).isSome
  fresh : ∀ f, (s.fibers f).isSome → f < s.next

/-- `t_fiber` names the fiber whose stack the thread is on. -/
def InSync (s : FiberThread κ) : Prop := ∃ c, s.current = some c ∧ s.Attuned c

/-- The calls that keep it so. -/
def Proper (s : FiberThread κ) : FiberCall κ → Prop
  | .swapIn _ => s.mainFiber = s.current
  | .call _ => s.threadFiber = s.current
  | .swapOut f | .back f => s.current = some f
  | .destroy f => s.current ≠ some f ∧ s.threadFiber ≠ some f
  | _ => True

instance (s : FiberThread κ) (act : FiberCall κ) : Decidable (s.Proper act) :=
  match act with
  | .swapIn _ => decEq s.mainFiber s.current
  | .call _ => decEq s.threadFiber s.current
  | .swapOut f | .back f => decEq s.current (some f)
  | .destroy f => inferInstanceAs (Decidable (s.current ≠ some f ∧ s.threadFiber ≠ some f))
  | .getThis | .create _ _ _ | .reset _ _ | .yieldToReady | .yieldToHold | .returns | .throws
  | .setState _ _ | .setMain _ => .isTrue trivial

/-! ### One switch -/

theorem get_eq_ok {fiber : Fiber κ} : s.get f = .ok fiber ↔ s.fibers f = some fiber := by
  unfold get
  cases s.fibers f with
  | none => simp
  | some other => simp

@[simp] theorem set_fibers (fiber : Fiber κ) :
    (s.set f fiber).fibers = Function.update s.fibers f (some fiber) := rfl

theorem isSome_set {fiber : Fiber κ} {g : Nat} (found : (s.fibers f).isSome) :
    ((s.set f fiber).fibers g).isSome = (s.fibers g).isSome := by
  rw [set_fibers]
  by_cases same : g = f
  · rw [same, Function.update_self, found]
    rfl
  · rw [Function.update_of_ne same]

/-- Only the fiber that runs may lose its context. -/
theorem Attuned.set {old fiber : Fiber κ} (attuned : s.Attuned c) (found : s.fibers f = some old)
    (kept : f = c ∨ fiber.ctx = old.ctx) : (s.set f fiber).Attuned c := by
  have live : (s.fibers f).isSome := by rw [found]; rfl
  refine ⟨by rw [isSome_set live]; exact attuned.live, attuned.home, ?_, ?_, ?_⟩
  · intro g other there apart
    rw [set_fibers] at there
    by_cases same : g = f
    · subst same
      rw [Function.update_self] at there
      cases there
      rw [kept.resolve_left apart]
      exact attuned.others g old found apart
    · rw [Function.update_of_ne same] at there
      exact attuned.others g other there apart
  · obtain ⟨t, thread, there⟩ := attuned.thread
    exact ⟨t, thread, by rwa [isSome_set live]⟩
  · intro g there
    rw [isSome_set live] at there
    exact attuned.fresh g there

/-- What `setcontext` does if it comes back. -/
theorem setcontext_eq_ok (loaded : s.setcontext f = .ok s') :
    ∃ fiber on, s.fibers f = some fiber ∧
      ((∃ caller, fiber.ctx = .entry caller ∧ on = .own f caller) ∨ fiber.ctx = .saved on false) ∧
      s' = { s.set f { fiber with ctx := .used } with running := on } := by
  obtain ⟨fiber, found, loaded⟩ := bind_eq_ok.mp loaded
  rw [get_eq_ok] at found
  refine ⟨fiber, s'.running, found, ?_⟩
  split at loaded
  next => cases loaded
  next => cases loaded
  next caller entry =>
    cases loaded
    exact ⟨.inl ⟨caller, entry, rfl⟩, rfl⟩
  next on saved =>
    cases loaded
    exact ⟨.inr saved, rfl⟩
  next => cases loaded

/-- A fiber that waits on its own stack goes on there. -/
theorem home_of_loaded {ctx : Context} {on : Stack} (waits : s.LeadsHome f ctx)
    (leads : (∃ caller, ctx = .entry caller ∧ on = .own f caller) ∨ ctx = .saved on false) :
    s.Home f on := by
  rcases leads with ⟨caller, -, rfl⟩ | rfl
  · rfl
  · exact waits

/-- A switch to the fiber that `t_fiber` names is right exactly if it is stored in the fiber that
is leaving. -/
theorem swapcontext_inSync_iff (attuned : s.Attuned c) (current : s.current = some b)
    (swapped : s.swapcontext a b finished = .ok s') : s'.InSync ↔ a = c := by
  obtain ⟨left, found, swapped⟩ := bind_eq_ok.mp swapped
  rw [get_eq_ok] at found
  obtain ⟨fiber, on, entered, leads, rfl⟩ := setcontext_eq_ok swapped
  rw [set_fibers] at entered
  constructor
  · rintro ⟨c', current', attuned'⟩
    cases current.symm.trans current'
    by_cases same : a = b
    · -- the context that was stored is the one that is loaded
      subst same
      rw [Function.update_self] at entered
      cases entered
      rcases leads with ⟨caller, entry, -⟩ | saved
      · cases entry
      · cases saved
        exact attuned'.home.unique attuned.home
    · have stored := attuned'.others a { left with ctx := .saved s.running finished } (by
        rw [set_fibers, Function.update_of_ne same]
        exact Function.update_self ..) same
      exact Home.unique (s := s) stored attuned.home
  · rintro rfl
    have stored : (s.set a { left with ctx := .saved s.running finished }).Attuned a :=
      attuned.set found (.inl rfl)
    have live : ((s.set a { left with ctx := .saved s.running finished }).fibers b).isSome := by
      rw [set_fibers, entered]
      rfl
    have own : s.Home b on := by
      by_cases same : a = b
      · subst same
        rw [Function.update_self] at entered
        cases entered
        have waits : s.LeadsHome a (.saved s.running finished) := attuned.home
        exact home_of_loaded waits leads
      · rw [Function.update_of_ne (Ne.symm same)] at entered
        exact home_of_loaded (attuned.others b fiber entered (Ne.symm same)) leads
    refine ⟨b, current, ⟨?_, own, ?_, ?_, ?_⟩⟩
    · exact (isSome_set live).trans live
    · intro f other there apart
      rw [set_fibers, Function.update_of_ne apart] at there
      by_cases leaving : f = a
      · subst leaving
        rw [set_fibers, Function.update_self] at there
        cases there
        exact attuned.home
      · exact stored.others f other there leaving
    · obtain ⟨t, thread, there⟩ := stored.thread
      exact ⟨t, thread, (isSome_set live).trans there⟩
    · intro f there
      exact stored.fresh f ((isSome_set live).symm.trans there)

/-! ### The calls -/

theorem deref_eq_ok {pointer : Option Nat} : deref pointer = .ok f ↔ pointer = some f := by
  cases pointer with
  | none => simp [deref]
  | some g => simp [deref]

theorem Attuned.setThis (attuned : s.Attuned c) (pointer : Option Nat) :
    (s.setThis pointer).Attuned c := by
  obtain ⟨live, home, others, thread, fresh⟩ := attuned
  exact ⟨live, home, others, thread, fresh⟩

/-- `swapIn` is right in the main fiber of the scheduler. -/
theorem swapIn_inSync_iff (attuned : s.Attuned c) (swapped : s.swapIn f = .ok s') :
    s'.InSync ↔ s.mainFiber = some c := by
  obtain ⟨fiber, found, swapped⟩ := bind_eq_ok.mp swapped
  rw [get_eq_ok] at found
  split at swapped
  next => cases swapped
  next =>
    obtain ⟨main, known, swapped⟩ := bind_eq_ok.mp swapped
    rw [deref_eq_ok] at known
    have entering : ((s.setThis (some f)).set f { fiber with state := .exec }).Attuned c :=
      (attuned.setThis _).set found (.inr rfl)
    rw [swapcontext_inSync_iff entering rfl swapped]
    have known' : s.mainFiber = some main := known
    rw [known', Option.some.injEq]

/-- `call` is right in the main fiber of the thread. -/
theorem call_inSync_iff (attuned : s.Attuned c) (swapped : s.call f = .ok s') :
    s'.InSync ↔ s.threadFiber = some c := by
  obtain ⟨fiber, found, swapped⟩ := bind_eq_ok.mp swapped
  rw [get_eq_ok] at found
  obtain ⟨thread, known, swapped⟩ := bind_eq_ok.mp swapped
  rw [deref_eq_ok] at known
  have entering : ((s.setThis (some f)).set f { fiber with state := .exec }).Attuned c :=
    (attuned.setThis _).set found (.inr rfl)
  rw [swapcontext_inSync_iff entering rfl swapped]
  have known' : s.threadFiber = some thread := known
  rw [known', Option.some.injEq]

/-- `swapOut` and `back` are right on the running fiber. -/
theorem swapOut_inSync_iff (attuned : s.Attuned c) (swapped : s.swapOut f finished = .ok s') :
    s'.InSync ↔ f = c := by
  obtain ⟨main, known, swapped⟩ := bind_eq_ok.mp swapped
  rw [deref_eq_ok] at known
  exact swapcontext_inSync_iff (attuned.setThis _) known swapped

theorem back_inSync_iff (attuned : s.Attuned c) (swapped : s.back f finished = .ok s') :
    s'.InSync ↔ f = c := by
  obtain ⟨thread, known, swapped⟩ := bind_eq_ok.mp swapped
  rw [deref_eq_ok] at known
  exact swapcontext_inSync_iff (attuned.setThis _) known swapped

/-- `GetThis` makes a fiber on the first call alone. -/
theorem getThis_of_current (current : s.current = some c) : s.getThis = (s, c) := by
  rw [getThis, current]

theorem yieldToReady_inSync (attuned : s.Attuned c) (current : s.current = some c)
    (swapped : s.yieldToReady = .ok s') : s'.InSync := by
  rw [yieldToReady, getThis_of_current current] at swapped
  obtain ⟨mid, ready, swapped⟩ := bind_eq_ok.mp swapped
  obtain ⟨fiber, found, ready⟩ := bind_eq_ok.mp ready
  rw [get_eq_ok] at found
  cases ready
  exact (swapOut_inSync_iff (attuned.set found (.inl rfl)) swapped).mpr rfl

theorem yieldToHold_inSync (attuned : s.Attuned c) (current : s.current = some c)
    (swapped : s.yieldToHold = .ok s') : s'.InSync := by
  rw [yieldToHold, getThis_of_current current] at swapped
  exact (swapOut_inSync_iff attuned swapped).mpr rfl

/-- The end of `MainFunc` leaves the running fiber. -/
theorem leaveMain_inSync {throws : Bool} (attuned : s.Attuned c) (current : s.current = some c)
    (swapped : s.leaveMain throws = .ok s') : s'.InSync := by
  rw [leaveMain, current] at swapped
  split at swapped
  next g caller f running named =>
    cases named
    obtain ⟨fiber, found, swapped⟩ := bind_eq_ok.mp swapped
    rw [get_eq_ok] at found
    split at swapped
    next => cases swapped
    next =>
      cases caller with
      | true => exact (back_inSync_iff (attuned.set found (.inl rfl)) swapped).mpr rfl
      | false => exact (swapOut_inSync_iff (attuned.set found (.inl rfl)) swapped).mpr rfl
  next => cases swapped

/-- A new fiber waits at its entry. -/
theorem create_inSync {configured stacksize : Nat} {cb : Option κ} {useCaller : Bool}
    (attuned : s.Attuned c) (current : s.current = some c) :
    (s.create configured cb stacksize useCaller).InSync := by
  obtain ⟨live, home, others, ⟨t, thread, there⟩, fresh⟩ := attuned
  have old : ∀ f, (s.fibers f).isSome → f ≠ s.next := fun f live => Nat.ne_of_lt (fresh f live)
  refine ⟨c, current, ⟨?_, home, ?_, ⟨t, thread, ?_⟩, ?_⟩⟩
  · rw [create, set_fibers, Function.update_of_ne (old c live)]
    exact live
  · intro f fiber found apart
    rw [create, set_fibers] at found
    by_cases new : f = s.next
    · rw [new, Function.update_self] at found
      cases found
      trivial
    · rw [Function.update_of_ne new] at found
      exact others f fiber found apart
  · rw [create, set_fibers, Function.update_of_ne (old t there)]
    exact there
  · intro f found
    rw [create, set_fibers] at found
    by_cases new : f = s.next
    · rw [new]
      exact Nat.lt_succ_self _
    · rw [Function.update_of_ne new] at found
      exact Nat.lt_succ_of_lt (fresh f found)

/-- What a destructor that does not assert leaves. -/
theorem destroy_eq_ok (destroyed : s.destroy f = .ok s') :
    s'.fibers = Function.update s.fibers f none ∧ s'.running = s.running ∧
      s'.threadFiber = s.threadFiber ∧ s'.next = s.next ∧
      (s'.current = s.current ∨ s.current = some f ∧ s'.current = none) := by
  obtain ⟨fiber, -, destroyed⟩ := bind_eq_ok.mp destroyed
  split at destroyed
  next =>
    split at destroyed
    next =>
      cases destroyed
      exact ⟨rfl, rfl, rfl, rfl, .inl rfl⟩
    next => cases destroyed
  next =>
    split at destroyed
    next =>
      cases destroyed
      split
      next this => exact ⟨rfl, rfl, rfl, rfl, .inr ⟨this, rfl⟩⟩
      next => exact ⟨rfl, rfl, rfl, rfl, .inl rfl⟩
    next => cases destroyed

/-- The running fiber and the one of the thread are not to be destroyed. -/
theorem destroy_inSync_iff (attuned : s.Attuned c) (current : s.current = some c)
    (destroyed : s.destroy f = .ok s') :
    s'.InSync ↔ s.current ≠ some f ∧ s.threadFiber ≠ some f := by
  obtain ⟨fibers, running, thread, next, this⟩ := destroy_eq_ok destroyed
  constructor
  · rintro ⟨c', current', attuned'⟩
    obtain ⟨live', home', others', ⟨t, thread', there⟩, fresh'⟩ := attuned'
    constructor
    · intro named
      rcases this with same | ⟨-, gone⟩
      · rw [same, named] at current'
        cases current'
        rw [fibers, Function.update_self] at live'
        cases live'
      · rw [gone] at current'
        cases current'
    · intro named
      rw [thread, named] at thread'
      cases thread'
      rw [fibers, Function.update_self] at there
      cases there
  · rintro ⟨apart, spared⟩
    have kept : s'.current = some c := by
      rcases this with same | ⟨named, -⟩
      · rw [same, current]
      · exact absurd named apart
    have other : c ≠ f := by
      rintro rfl
      exact apart current
    obtain ⟨t, named, there⟩ := attuned.thread
    have otherThread : t ≠ f := by
      rintro rfl
      exact spared named
    have leads : ∀ g ctx, s.LeadsHome g ctx → s'.LeadsHome g ctx := by
      intro g ctx waits
      cases ctx with
      | saved on finished =>
        cases on with
        | thread => exact thread.trans waits
        | own h caller => exact waits
      | entry caller => trivial
      | unset => exact waits
      | used => exact waits
    refine ⟨c, kept, ⟨?_, ?_, ?_, ⟨t, thread.trans named, ?_⟩, ?_⟩⟩
    · rw [fibers, Function.update_of_ne other]
      exact attuned.live
    · exact leads c (.saved s'.running false) (by rw [running]; exact attuned.home)
    · intro g fiber found away
      rw [fibers] at found
      by_cases same : g = f
      · rw [same, Function.update_self] at found
        cases found
      · rw [Function.update_of_ne same] at found
        exact leads g fiber.ctx (attuned.others g fiber found away)
    · rw [fibers, Function.update_of_ne otherThread]
      exact there
    · intro g found
      rw [fibers] at found
      rw [next]
      by_cases same : g = f
      · rw [same, Function.update_self] at found
        cases found
      · rw [Function.update_of_ne same] at found
        exact attuned.fresh g found

/-- A fiber that is reset waits at its entry. -/
theorem reset_inSync {cb : Option κ} (attuned : s.Attuned c) (current : s.current = some c)
    (done : s.reset f cb = .ok s') : s'.InSync := by
  obtain ⟨fiber, found, done⟩ := bind_eq_ok.mp done
  rw [get_eq_ok] at found
  split at done
  next =>
    cases done
    have live : (s.fibers f).isSome := by rw [found]; rfl
    refine ⟨c, current, ⟨?_, attuned.home, ?_, ?_, ?_⟩⟩
    · rw [isSome_set live]
      exact attuned.live
    · intro g other there apart
      rw [set_fibers] at there
      by_cases same : g = f
      · rw [same, Function.update_self] at there
        cases there
        trivial
      · rw [Function.update_of_ne same] at there
        exact attuned.others g other there apart
    · obtain ⟨t, thread, there⟩ := attuned.thread
      exact ⟨t, thread, by rwa [isSome_set live]⟩
    · intro g there
      rw [isSome_set live] at there
      exact attuned.fresh g there
  next => cases done

theorem setState_inSync {state : FiberState} (attuned : s.Attuned c)
    (current : s.current = some c) (done : s.setState f state = .ok s') : s'.InSync := by
  obtain ⟨fiber, found, done⟩ := bind_eq_ok.mp done
  rw [get_eq_ok] at found
  cases done
  exact ⟨c, current, attuned.set found (.inr rfl)⟩

/-- One call keeps `t_fiber` in step exactly if it is proper. -/
theorem step_inSync_iff {configured : Nat} {act : FiberCall κ} (synced : s.InSync)
    (stepped : s.step configured act = .ok s') : s'.InSync ↔ s.Proper act := by
  obtain ⟨c, current, attuned⟩ := synced
  cases act with
  | getThis =>
    cases stepped
    rw [getThis_of_current current]
    exact iff_of_true ⟨c, current, attuned⟩ trivial
  | create cb stacksize useCaller =>
    cases stepped
    exact iff_of_true (create_inSync attuned current) trivial
  | destroy f => exact destroy_inSync_iff attuned current stepped
  | reset f cb => exact iff_of_true (reset_inSync attuned current stepped) trivial
  | swapIn f =>
    rw [swapIn_inSync_iff attuned stepped, Proper, current]
  | swapOut f =>
    rw [swapOut_inSync_iff attuned stepped, Proper, current, Option.some.injEq]
    exact eq_comm
  | call f =>
    rw [call_inSync_iff attuned stepped, Proper, current]
  | back f =>
    rw [back_inSync_iff attuned stepped, Proper, current, Option.some.injEq]
    exact eq_comm
  | yieldToReady => exact iff_of_true (yieldToReady_inSync attuned current stepped) trivial
  | yieldToHold => exact iff_of_true (yieldToHold_inSync attuned current stepped) trivial
  | returns => exact iff_of_true (leaveMain_inSync attuned current stepped) trivial
  | throws => exact iff_of_true (leaveMain_inSync attuned current stepped) trivial
  | setState f state => exact iff_of_true (setState_inSync attuned current stepped) trivial
  | setMain f =>
    cases stepped
    obtain ⟨live, home, others, thread, fresh⟩ := attuned
    exact iff_of_true ⟨c, current, ⟨live, home, others, thread, fresh⟩⟩ trivial

/-! ### Whole runs -/

/-- The first `GetThis` of a thread. -/
theorem start_inSync : (start (κ := κ)).getThis.1.InSync := by
  refine ⟨0, rfl, ⟨rfl, rfl, ?_, ⟨0, rfl, rfl⟩, ?_⟩⟩
  · intro f fiber found apart
    have nothing : (start (κ := κ)).getThis.1.fibers f = none := Function.update_of_ne apart _ _
    rw [nothing] at found
    cases found
  · intro f found
    by_contra beyond
    have apart : f ≠ 0 := by
      rintro rfl
      exact beyond Nat.one_pos
    have nothing : (start (κ := κ)).getThis.1.fibers f = none := Function.update_of_ne apart _ _
    rw [nothing] at found
    cases found

/-- Throughout a run `t_fiber` names the fiber whose stack the thread is on, exactly if every
`swapIn` is made in the main fiber of the scheduler, every `call` in that of the thread, every
`swapOut` and `back` on the running fiber, and neither this nor the thread's is destroyed. -/
theorem inSync_throughout_iff (configured : Nat) (acts : List (FiberCall κ)) :
    (∀ n mid, calls (step configured) start.getThis.1 (acts.take n) = .ok mid → mid.InSync) ↔
      Legal (step configured) (fun s act => ∀ s', s.step configured act = .ok s' → s.Proper act)
        start.getThis.1 acts :=
  states_iff_legal (fun _ _ _ => step_inSync_iff) start_inSync acts

/-- A task that swaps in another fiber itself. -/
example : ¬ Legal (step 4096) (Proper (κ := Unit)) start.getThis.1
    [.create (some ()) 0 false, .setMain 0, .swapIn 1, .create (some ()) 0 false, .swapIn 2] := by
  decide

/-- A context that waits can be loaded. -/
theorem setcontext_ne_wild {fiber : Fiber κ} (found : s.fibers f = some fiber)
    (waits : s.LeadsHome f fiber.ctx) : s.setcontext f ≠ .error .wild := by
  intro wild
  rcases bind_eq_error.mp wild with gone | ⟨fiber', found', wild⟩
  · rw [get, found] at gone
    cases gone
  · rw [get_eq_ok, found] at found'
    cases found'
    revert waits wild
    cases fiber.ctx with
    | unset => exact fun waits _ => waits
    | used => exact fun waits _ => waits
    | entry caller => exact fun _ wild => nomatch wild
    | saved on finished =>
      cases finished with
      | true => exact fun _ wild => nomatch wild
      | false => exact fun _ wild => nomatch wild

/-- Nor does a switch out of the running fiber load a context that does not wait. -/
theorem swapcontext_ne_wild (attuned : s.Attuned c) :
    s.swapcontext c b finished ≠ .error .wild := by
  intro wild
  rcases bind_eq_error.mp wild with gone | ⟨left, found, wild⟩
  · obtain ⟨fiber, found⟩ := Option.isSome_iff_exists.mp attuned.live
    rw [get, found] at gone
    cases gone
  rw [get_eq_ok] at found
  have stored : (s.set c { left with ctx := .saved s.running finished }).Attuned c :=
    attuned.set found (.inl rfl)
  rcases Option.eq_none_or_eq_some
    ((s.set c { left with ctx := .saved s.running finished }).fibers b) with gone | ⟨fiber, there⟩
  · rcases bind_eq_error.mp wild with missing | ⟨fiber, there, -⟩
    · rw [get, gone] at missing
      cases missing
    · rw [get_eq_ok, gone] at there
      cases there
  · refine setcontext_ne_wild there ?_ wild
    by_cases same : b = c
    · subst same
      rw [set_fibers, Function.update_self] at there
      cases there
      exact attuned.home
    · exact stored.others b fiber there same

theorem get_ne_wild : s.get f ≠ .error .wild := by
  rw [get]
  cases s.fibers f with
  | none => exact fun wild => nomatch wild
  | some fiber => exact fun wild => nomatch wild

theorem deref_ne_wild {pointer : Option Nat} : deref pointer ≠ .error .wild := by
  cases pointer with
  | none => exact fun wild => nomatch wild
  | some f => exact fun wild => nomatch wild

theorem swapOut_ne_wild (attuned : s.Attuned c) : s.swapOut c finished ≠ .error .wild := by
  intro wild
  rcases bind_eq_error.mp wild with null | ⟨main, -, wild⟩
  · exact deref_ne_wild null
  · exact swapcontext_ne_wild (attuned.setThis _) wild

theorem back_ne_wild (attuned : s.Attuned c) : s.back c finished ≠ .error .wild := by
  intro wild
  rcases bind_eq_error.mp wild with null | ⟨thread, -, wild⟩
  · exact deref_ne_wild null
  · exact swapcontext_ne_wild (attuned.setThis _) wild

theorem leaveMain_ne_wild {throws : Bool} (attuned : s.Attuned c) (current : s.current = some c) :
    s.leaveMain throws ≠ .error .wild := by
  intro wild
  rw [leaveMain, current] at wild
  split at wild
  next g caller f running named =>
    cases named
    rcases bind_eq_error.mp wild with gone | ⟨fiber, found, wild⟩
    · exact get_ne_wild gone
    rw [get_eq_ok] at found
    split at wild
    next => cases wild
    next =>
      cases caller with
      | true => exact back_ne_wild (attuned.set found (.inl rfl)) wild
      | false => exact swapOut_ne_wild (attuned.set found (.inl rfl)) wild
  next => cases wild

/-- A proper call never loads a context that does not wait. -/
theorem step_ne_wild {configured : Nat} {act : FiberCall κ} (synced : s.InSync)
    (proper : s.Proper act) : s.step configured act ≠ .error .wild := by
  obtain ⟨c, current, attuned⟩ := synced
  intro wild
  cases act with
  | getThis => cases wild
  | create cb stacksize useCaller => cases wild
  | destroy f =>
    rcases bind_eq_error.mp wild with gone | ⟨fiber, -, wild⟩
    · exact get_ne_wild gone
    · split at wild
      next => split at wild <;> cases wild
      next => split at wild <;> cases wild
  | reset f cb =>
    rcases bind_eq_error.mp wild with gone | ⟨fiber, -, wild⟩
    · exact get_ne_wild gone
    · split at wild <;> cases wild
  | swapIn f =>
    rcases bind_eq_error.mp wild with gone | ⟨fiber, found, wild⟩
    · exact get_ne_wild gone
    rw [get_eq_ok] at found
    split at wild
    next => cases wild
    next =>
      rcases bind_eq_error.mp wild with null | ⟨main, known, wild⟩
      · exact deref_ne_wild null
      rw [deref_eq_ok] at known
      have same : s.mainFiber = some c := proper.trans current
      cases known.symm.trans same
      have entering : ((s.setThis (some f)).set f { fiber with state := .exec }).Attuned c :=
        (attuned.setThis _).set found (.inr rfl)
      exact swapcontext_ne_wild entering wild
  | swapOut f =>
    cases current.symm.trans proper
    exact swapOut_ne_wild attuned wild
  | call f =>
    rcases bind_eq_error.mp wild with gone | ⟨fiber, found, wild⟩
    · exact get_ne_wild gone
    rw [get_eq_ok] at found
    rcases bind_eq_error.mp wild with null | ⟨thread, known, wild⟩
    · exact deref_ne_wild null
    rw [deref_eq_ok] at known
    have same : s.threadFiber = some c := proper.trans current
    cases known.symm.trans same
    have entering : ((s.setThis (some f)).set f { fiber with state := .exec }).Attuned c :=
      (attuned.setThis _).set found (.inr rfl)
    exact swapcontext_ne_wild entering wild
  | back f =>
    cases current.symm.trans proper
    exact back_ne_wild attuned wild
  | yieldToReady =>
    have wild : s.yieldToReady = .error .wild := wild
    rw [yieldToReady, getThis_of_current current] at wild
    rcases bind_eq_error.mp wild with unset | ⟨mid, ready, wild⟩
    · rcases bind_eq_error.mp unset with gone | ⟨fiber, -, unset⟩
      · exact get_ne_wild gone
      · cases unset
    · obtain ⟨fiber, found, ready⟩ := bind_eq_ok.mp ready
      rw [get_eq_ok] at found
      cases ready
      exact swapOut_ne_wild (attuned.set found (.inl rfl)) wild
  | yieldToHold =>
    have wild : s.yieldToHold = .error .wild := wild
    rw [yieldToHold, getThis_of_current current] at wild
    exact swapOut_ne_wild attuned wild
  | returns => exact leaveMain_ne_wild attuned current wild
  | throws => exact leaveMain_ne_wild attuned current wild
  | setState f state =>
    rcases bind_eq_error.mp wild with gone | ⟨fiber, -, wild⟩
    · exact get_ne_wild gone
    · cases wild
  | setMain f => cases wild

/-- A run of proper calls that faults does so on an assertion, a null pointer or an object that is
gone, or ends its thread; it never loads a context that does not wait. -/
theorem calls_ne_wild {configured : Nat} {acts : List (FiberCall κ)}
    (proper : Legal (step configured) Proper start.getThis.1 acts) :
    calls (step configured) start.getThis.1 acts ≠ .error .wild := by
  intro wild
  have kept : ∀ (s : FiberThread κ) act s', s.InSync → s.Proper act →
      s.step configured act = .ok s' → s'.InSync :=
    fun s act s' synced proper stepped => (step_inSync_iff synced stepped).mpr proper
  have faults : ∀ (s : FiberThread κ) act fault, s.InSync → s.Proper act →
      s.step configured act = .error fault → fault ≠ .wild := by
    rintro s act fault synced proper faulted rfl
    exact step_ne_wild synced proper faulted
  have may := calls_fault InSync kept faults start_inSync proper wild
  exact may rfl

/-- A fiber that yields, goes on, ends, and is resumed once more. -/
theorem calls_ne_wild_resumed :
    calls (step (κ := Unit) 4096) start.getThis.1
      [.create (some ()) 0 false, .setMain 0, .swapIn 1, .yieldToHold, .setState 1 .hold,
        .swapIn 1, .returns, .swapIn 1] ≠ .error .wild :=
  calls_ne_wild (by decide)

end FiberThread

end Dwframe
