import Dwframe.Timer.Invariant
import Mathlib.Data.List.Perm.Subperm

/-!
# Which timers expire

A timer is `Due` when the 32 bits kept in `m_next` are not above those of the clock. `Exact` is
what `listExpiredCb` is for: the callbacks of the due timers in the order of `m_next`, the
recurring ones re-armed, the others disarmed. The cut it makes is at an object, `now_timer`, and
not at a time: a timer due at the clock itself is on either side of it, as the allocator has it.
-/
namespace Dwframe.TimerManager

open Lib

variable {κ : Type} {s s' : TimerManager κ}

/-- `m_next <= now`, in the 32 bits that are stored. -/
def Due (s : TimerManager κ) (now : UInt64) (addr : Nat) : Prop :=
  addr ∈ s.timers ∧ s.nextOf addr ≤ now.toUInt32

/-- From `s` to `s'` the due timers fire and no others. -/
structure Exact (s s' : TimerManager κ) (now : UInt64) (cbs : List (Option κ)) : Prop where
  callbacks : ∃ fired : List Nat, fired.Nodup ∧ (∀ a, a ∈ fired ↔ s.Due now a) ∧
    (fired.Pairwise fun a b => s.nextOf a ≤ s.nextOf b) ∧
    cbs = fired.map fun a => (s.object a).bind Timer.cb
  nodup : s'.timers.Nodup
  timers : ∀ a, a ∈ s'.timers ↔ a ∈ s.timers ∧ now.toUInt32 < s.nextOf a ∨
    s.Due now a ∧ ∃ timer, s.object a = some timer ∧ timer.recurring = true
  recurring : ∀ a timer, s.Due now a → s.object a = some timer → timer.recurring = true →
    s'.object a = some { timer with next := (now + timer.ms).toUInt32 }
  one_shot : ∀ a timer, s.Due now a → s.object a = some timer → timer.recurring = false →
    s'.object a = some { timer with cb := none }
  others : ∀ a, ¬s.Due now a → s'.object a = s.object a

/-- Due at the clock itself, and above `now_timer` in the heap. -/
def Missed (s : TimerManager κ) (now : UInt64) (probe addr : Nat) : Prop :=
  addr ∈ s.timers ∧ s.nextOf addr = now.toUInt32 ∧ probe < addr

theorem expired_iff (coherent : Coherent s) (now : UInt64) {probe : Nat}
    (fresh : s.object probe = none) (addr : Nat) :
    addr ∈ s.expired now probe ↔ s.Due now addr ∧ ¬s.Missed now probe addr := by
  rw [mem_expired coherent now fresh, Due, Missed, UInt32.le_iff_toNat_le, UInt32.lt_iff_toNat_lt,
    ← UInt32.toNat_inj, ← UInt32.toNat_inj]
  by_cases inside : addr ∈ s.timers
  · simp only [inside, true_and]
    omega
  · simp only [inside, false_and]

/-- The expired timers are the front of the set, so they come in its order. -/
theorem expired_pairwise (coherent : Coherent s) (now : UInt64) (probe : Nat) :
    (s.expired now probe).Pairwise fun a b => s.nextOf a ≤ s.nextOf b := by
  refine (coherent.sorted.sublist (expired_sublist s now probe)).imp fun {a b} before => ?_
  rw [comparator_iff, UInt32.lt_iff_toNat_lt, ← UInt32.toNat_inj] at before
  rw [UInt32.le_iff_toNat_le]
  omega

theorem expired_nodup (coherent : Coherent s) (now : UInt64) (probe : Nat) :
    (s.expired now probe).Nodup :=
  (expired_sublist s now probe).nodup coherent.sorted.nodup

/-- With none missed the expired timers are the due ones. -/
theorem exact_of_expired (coherent : Coherent s) (now : UInt64) (probe : Nat)
    (due : ∀ a, a ∈ s.expired now probe ↔ s.Due now a) :
    ∃ cbs s', s.listExpiredCb now probe = .ok (cbs, s') ∧ Exact s s' now cbs := by
  obtain ⟨cbs, s', kept, ran, final, -, fired, kept_iff⟩ := listExpiredCb_fired coherent now probe
  refine ⟨cbs, s', ran, ?_⟩
  have object : ∀ a, s'.object a =
      if a ∈ s.expired now probe then (s.object a).map (rearm now) else s.object a := fired.object
  exact
    { callbacks := ⟨s.expired now probe, expired_nodup coherent now probe, due,
        expired_pairwise coherent now probe, fired.callbacks⟩
      nodup := final.sorted.nodup
      timers := fun a => by
        rw [fired.timers, kept_iff, due]
        have later : a ∈ s.timers ∧ ¬s.Due now a ↔
            a ∈ s.timers ∧ now.toUInt32 < s.nextOf a := by
          rw [Due, UInt32.le_iff_toNat_le, UInt32.lt_iff_toNat_lt]
          refine and_congr_right fun inside => ?_
          rw [not_and, imp_iff_right inside, Nat.not_le]
        rw [later]
      recurring := fun a timer gone found recurring => by
        rw [object, if_pos ((due a).mpr gone), found, Option.map_some, rearm, if_pos recurring]
      one_shot := fun a timer gone found one_shot => by
        rw [object, if_pos ((due a).mpr gone), found, Option.map_some, rearm, one_shot,
          if_neg Bool.false_ne_true]
      others := fun a stays => by
        rw [object, if_neg (fun gone => stays ((due a).mp gone))] }

/-- As many callbacks as timers: the ones that were to fire have fired. -/
theorem all_expired (coherent : Coherent s) {now : UInt64} {probe : Nat} {fired : List Nat}
    (fresh : s.object probe = none) (due : ∀ a, a ∈ fired ↔ s.Due now a)
    (length : fired.length = (s.expired now probe).length) (addr : Nat) (here : s.Due now addr) :
    addr ∈ s.expired now probe := by
  have within : ∀ a ∈ s.expired now probe, a ∈ fired := fun a gone =>
    (due a).mpr ((expired_iff coherent now fresh a).mp gone).1
  have same : (s.expired now probe).Perm fired :=
    ((expired_nodup coherent now probe).subperm within).perm_of_length_le (Nat.le_of_eq length)
  exact same.mem_iff.mpr ((due addr).mpr here)

/-! ### The same timers at other addresses -/

/-- `t` is `s` with its timer objects elsewhere in the heap. -/
structure Relocated (move : Nat → Nat) (s t : TimerManager κ) : Prop where
  injective : Function.Injective move
  object : ∀ a, t.object (move a) = s.object a
  timers : ∀ a, a ∈ t.timers ↔ ∃ b ∈ s.timers, move b = a

/-- Wherever the timers and `now_timer` lie, the call returns the same callbacks, those of one
`m_next` in any order, and leaves the same timers. -/
def AddressFree (s : TimerManager κ) (now : UInt64) (probe : Nat) : Prop :=
  ∀ (move : Nat → Nat) (t : TimerManager κ) (probe' : Nat), Relocated move s t → Coherent t →
    t.object probe' = none →
    ∃ cbs s' cbs' t', s.listExpiredCb now probe = .ok (cbs, s') ∧
      t.listExpiredCb now probe' = .ok (cbs', t') ∧ cbs.Perm cbs' ∧ Relocated move s' t'

namespace Relocated

variable {move : Nat → Nat} {t : TimerManager κ}

theorem nextOf (moved : Relocated move s t) (addr : Nat) :
    t.nextOf (move addr) = s.nextOf addr := by
  rw [TimerManager.nextOf, moved.object, TimerManager.nextOf]

theorem mem_timers (moved : Relocated move s t) (addr : Nat) :
    move addr ∈ t.timers ↔ addr ∈ s.timers := by
  rw [moved.timers]
  constructor
  · rintro ⟨b, inside, same⟩
    exact moved.injective same ▸ inside
  · exact fun inside => ⟨addr, inside, rfl⟩

theorem due (moved : Relocated move s t) (now : UInt64) (addr : Nat) :
    t.Due now (move addr) ↔ s.Due now addr := by
  rw [Due, Due, moved.mem_timers, moved.nextOf]

/-- Calls that fire the same timers in two layouts have the same outcome. -/
theorem fired (moved : Relocated move s t) (coherent : Coherent s) (coherent' : Coherent t)
    (now : UInt64) (probe probe' : Nat)
    (same : ∀ a, move a ∈ t.expired now probe' ↔ a ∈ s.expired now probe) :
    ∃ cbs s' cbs' t', s.listExpiredCb now probe = .ok (cbs, s') ∧
      t.listExpiredCb now probe' = .ok (cbs', t') ∧ cbs.Perm cbs' ∧ Relocated move s' t' := by
  obtain ⟨cbs, s', kept, ran, -, -, fired, kept_iff⟩ := listExpiredCb_fired coherent now probe
  obtain ⟨cbs', t', kept', ran', -, -, fired', kept_iff'⟩ :=
    listExpiredCb_fired coherent' now probe'
  refine ⟨cbs, s', cbs', t', ran, ran', ?_, moved.injective, fun a => ?_, fun a => ?_⟩
  · have all : ((s.expired now probe).map move).Perm (t.expired now probe') := by
      rw [List.perm_ext_iff_of_nodup
        ((expired_nodup coherent now probe).map moved.injective)
        (expired_nodup coherent' now probe')]
      intro a
      constructor
      · intro gone
        obtain ⟨b, member, rfl⟩ := List.mem_map.mp gone
        exact (same b).mpr member
      · intro gone
        obtain ⟨b, -, rfl⟩ := (moved.timers a).mp ((expired_sublist t now probe').subset gone)
        exact List.mem_map.mpr ⟨b, (same b).mp gone, rfl⟩
    -- timers of one time come in the order of the addresses, so the callbacks agree up to it
    have callbacks : cbs = ((s.expired now probe).map move).map
        fun a => (t.object a).bind Timer.cb := by
      rw [fired.callbacks, List.map_map]
      refine List.map_congr_left fun a _ => ?_
      simp only [Function.comp_apply, moved.object]
    rw [callbacks, fired'.callbacks]
    exact all.map _
  · rw [fired'.object, fired.object]
    simp only [same, moved.object]
  · rw [fired'.timers, kept_iff']
    constructor
    · rintro (⟨inside, stays⟩ | ⟨gone, timer, found, recurring⟩)
      · obtain ⟨b, member, rfl⟩ := (moved.timers a).mp inside
        refine ⟨b, (fired.timers b).mpr (.inl ((kept_iff b).mpr ⟨member, ?_⟩)), rfl⟩
        rwa [← same]
      · obtain ⟨b, -, rfl⟩ := (moved.timers a).mp ((expired_sublist t now probe').subset gone)
        have object : s.object b = some timer := (moved.object b).symm.trans found
        exact ⟨b, (fired.timers b).mpr (.inr ⟨(same b).mp gone, timer, object, recurring⟩), rfl⟩
    · rintro ⟨b, inside, rfl⟩
      rcases (fired.timers b).mp inside with kept | ⟨gone, timer, found, recurring⟩
      · obtain ⟨member, stays⟩ := (kept_iff b).mp kept
        exact .inl ⟨(moved.mem_timers b).mpr member, fun gone => stays ((same b).mp gone)⟩
      · exact .inr ⟨(same b).mpr gone, timer, (moved.object b).trans found, recurring⟩

end Relocated

/-- Every timer at an odd address: between any two there is room for `now_timer`. -/
def spread (s : TimerManager κ) : TimerManager κ :=
  { s with
    object := fun a => if a % 2 = 1 then s.object (a / 2) else none
    timers := s.timers.map fun a => 2 * a + 1 }

theorem spread_relocated (s : TimerManager κ) : Relocated (fun a => 2 * a + 1) s s.spread where
  injective a b same := by
    simp only [Nat.add_right_cancel_iff] at same
    omega
  object a := by
    have odd : (2 * a + 1) % 2 = 1 := by omega
    have half : (2 * a + 1) / 2 = a := by omega
    simp only [spread, if_pos odd, half]
  timers a := List.mem_map

theorem spread_coherent (coherent : Coherent s) : Coherent s.spread where
  sorted := by
    refine List.pairwise_map.mpr (coherent.sorted.imp fun {a b} before => ?_)
    rw [comparator_iff] at before ⊢
    rw [(spread_relocated s).nextOf a, (spread_relocated s).nextOf b]
    refine before.imp id (And.imp_right ?_)
    omega
  live a inside := by
    obtain ⟨b, member, rfl⟩ := ((spread_relocated s).timers a).mp inside
    obtain ⟨timer, found⟩ := coherent.live b member
    exact ⟨timer, ((spread_relocated s).object b).trans found⟩

theorem spread_even (s : TimerManager κ) (a : Nat) : s.spread.object (2 * a) = none := by
  have even : ¬2 * a % 2 = 1 := by omega
  simp only [spread, if_neg even]

/-- A timer due at the clock itself is fired or missed as `now_timer` lies. -/
theorem not_addressFree (coherent : Coherent s) {now : UInt64} {probe addr : Nat}
    (inside : addr ∈ s.timers) (tie : s.nextOf addr = now.toUInt32) :
    ¬s.AddressFree now probe := by
  intro free
  have moved := spread_relocated s
  have coherent' := spread_coherent coherent
  have below := spread_even s 0
  have above := spread_even s (addr + 1)
  -- the number of callbacks does not depend on where `now_timer` lies
  have length : ∀ probe', s.spread.object probe' = none → ∀ cbs s₁,
      s.listExpiredCb now probe = .ok (cbs, s₁) →
      cbs.length = (s.spread.expired now probe').length := by
    intro probe' fresh cbs s₁ ran
    obtain ⟨cbs₂, s₂, cbs', t', ran₂, ran', same, -⟩ := free _ _ probe' moved coherent' fresh
    obtain ⟨cbs₃, t₃, kept, ran₃, -, -, fired, -⟩ := listExpiredCb_fired coherent' now probe'
    rw [ran] at ran₂
    rw [ran'] at ran₃
    cases ran₂
    cases ran₃
    rw [same.length_eq, fired.callbacks, List.length_map]
  obtain ⟨cbs, s₁, -, ran, -⟩ := listExpiredCb_fired coherent now probe
  have within : ∀ a ∈ s.spread.expired now (2 * 0), a ∈ s.spread.expired now (2 * (addr + 1)) := by
    intro a gone
    obtain ⟨due, caught⟩ := (expired_iff coherent' now below a).mp gone
    refine (expired_iff coherent' now above a).mpr ⟨due, ?_⟩
    rintro ⟨member, same, higher⟩
    exact caught ⟨member, same, by omega⟩
  -- no fewer than with `now_timer` above, and each of them expires there too
  have equal : (s.spread.expired now (2 * 0)).Perm (s.spread.expired now (2 * (addr + 1))) :=
    ((expired_nodup coherent' now _).subperm within).perm_of_length_le
      (Nat.le_of_eq ((length _ above _ _ ran).symm.trans (length _ below _ _ ran)))
  have caught : 2 * addr + 1 ∈ s.spread.expired now (2 * (addr + 1)) := by
    refine (expired_iff coherent' now above _).mpr ⟨(moved.due now addr).mpr ⟨inside, ?_⟩, ?_⟩
    · rw [tie]
      exact UInt32.le_refl _
    · rintro ⟨-, -, higher⟩
      omega
  obtain ⟨-, not_missed⟩ := (expired_iff coherent' now below _).mp (equal.mem_iff.mpr caught)
  exact not_missed ⟨(moved.mem_timers addr).mpr inside, (moved.nextOf addr).trans tie, by omega⟩

/-! ### The outcome -/

/-- `listExpiredCb` fires the due timers, and no others, exactly when none that is due at the clock
itself lies above `now_timer`. This holds wherever the objects lie exactly when no timer is due at
the clock itself. -/
theorem listExpiredCb_exact_iff (coherent : Coherent s) (now : UInt64) {probe : Nat}
    (fresh : s.object probe = none) :
    ((∃ cbs s', s.listExpiredCb now probe = .ok (cbs, s') ∧ Exact s s' now cbs) ↔
        ∀ addr ∈ s.timers, s.nextOf addr = now.toUInt32 → addr < probe) ∧
      (s.AddressFree now probe ↔ ∀ addr ∈ s.timers, s.nextOf addr ≠ now.toUInt32) := by
  refine ⟨⟨?_, fun below => ?_⟩, ⟨fun free addr inside tie => ?_, fun apart => ?_⟩⟩
  · rintro ⟨cbs, s', ran, exact_⟩ addr inside tie
    obtain ⟨fired, -, due, -, callbacks⟩ := exact_.callbacks
    obtain ⟨cbs', s₁, kept, ran', -, -, outcome, -⟩ := listExpiredCb_fired coherent now probe
    rw [ran] at ran'
    cases ran'
    -- a callback for each timer, so all that were to fire have expired
    have length : fired.length = (s.expired now probe).length := by
      have both := callbacks.symm.trans outcome.callbacks
      simpa using congrArg List.length both
    have gone := all_expired coherent fresh due length addr ⟨inside, UInt32.le_of_eq tie⟩
    have caught := ((expired_iff coherent now fresh addr).mp gone).2
    -- both objects are in the heap
    have differ : addr ≠ probe := by
      rintro rfl
      obtain ⟨timer, found⟩ := coherent.live addr inside
      rw [fresh] at found
      cases found
    have not_above : ¬probe < addr := fun higher => caught ⟨inside, tie, higher⟩
    omega
  · refine exact_of_expired coherent now probe fun a => ?_
    rw [expired_iff coherent now fresh]
    refine and_iff_left ?_
    rintro ⟨inside, tie, higher⟩
    exact Nat.lt_asymm higher (below a inside tie)
  · exact not_addressFree coherent inside tie free
  · intro move t probe' moved coherent' fresh'
    refine moved.fired coherent coherent' now probe probe' fun a => ?_
    rw [expired_iff coherent' now fresh', expired_iff coherent now fresh, moved.due]
    refine and_congr_right fun due => ?_
    constructor
    · rintro - ⟨inside, tie, -⟩
      exact apart a inside tie
    · rintro - ⟨inside, tie, -⟩
      rw [moved.nextOf] at tie
      exact apart a ((moved.mem_timers a).mp inside) tie

/-- A one-shot timer due at 10 and the clock at 10: with the timer below `now_timer` it fires. -/
theorem listExpiredCb_exact_below :
    (∃ cbs s', (empty.addtimer 5 2 5 (some ()) false).listExpiredCb 10 3 = .ok (cbs, s') ∧
        Exact (empty.addtimer 5 2 5 (some ()) false) s' 10 cbs) ∧
      ¬(empty.addtimer 5 2 5 (some ()) false).AddressFree 10 3 := by
  have coherent : Coherent (empty.addtimer 5 2 5 (some ()) false) :=
    (addtimer_ordered empty_ordered 5 rfl 5 rfl false).coherent
  have fresh : (empty.addtimer 5 2 5 (some ()) false).object 3 = none := rfl
  obtain ⟨outcome, free⟩ := listExpiredCb_exact_iff coherent 10 fresh
  refine ⟨outcome.mpr fun addr inside _ => ?_, fun independent => ?_⟩
  · rw [List.mem_singleton.mp inside]
    decide
  · exact free.mp independent 2 List.mem_cons_self rfl

/-- With the timer above `now_timer` nothing is returned. -/
theorem listExpiredCb_misses_due :
    ¬∃ cbs s', (empty.addtimer 5 2 5 (some ()) false).listExpiredCb 10 1 = .ok (cbs, s') ∧
      Exact (empty.addtimer 5 2 5 (some ()) false) s' 10 cbs := by
  rintro ⟨cbs, s', ran, outcome⟩
  obtain ⟨fired, -, due, -, callbacks⟩ := outcome.callbacks
  cases ran
  have nothing : fired = [] := List.map_eq_nil_iff.mp callbacks.symm
  have here : 2 ∈ fired := (due 2).mpr ⟨List.mem_cons_self, by decide⟩
  rw [nothing] at here
  cases here

end Dwframe.TimerManager
