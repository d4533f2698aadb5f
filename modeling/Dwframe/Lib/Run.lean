import Mathlib.Data.List.Induction

/-!
# Runs of a step function

A system is a step function that may be undefined on an action. `exec` performs a
list of actions; `Along` says that every step of the run meets a side condition.
The invariant rules turn what one step preserves into what a whole run preserves.
-/
namespace Dwframe.Lib.Run

variable {σ α ε : Type}

section Enabled

variable (step : σ → α → Option σ)

/-- The state after the actions, if each of them is enabled in turn. -/
def exec : σ → List α → Option σ
  | s, [] => some s
  | s, a :: rest => (step s a).bind fun s' => exec s' rest

/-- Every step of the run is taken in a state that meets `ok`. -/
def Along (ok : σ → α → Prop) : σ → List α → Prop
  | _, [] => True
  | s, a :: rest => ok s a ∧ ∀ s', step s a = some s' → Along ok s' rest

variable {step}

/-- A step that preserves `inv` under `ok` preserves it along a whole run. -/
theorem exec_invariant (inv : σ → Prop) {ok : σ → α → Prop}
    (preserved : ∀ s a s', inv s → ok s a → step s a = some s' → inv s')
    {s s' : σ} {actions : List α} (initial : inv s) (along : Along step ok s actions)
    (ran : exec step s actions = some s') : inv s' := by
  induction actions generalizing s with
  | nil =>
    cases ran
    exact initial
  | cons a rest ih =>
    obtain ⟨first, later⟩ := along
    obtain ⟨mid, stepped, ran'⟩ := Option.bind_eq_some_iff.mp ran
    exact ih (preserved s a mid initial first stepped) (later mid stepped) ran'

/-- A run cut in two. -/
theorem exec_append (s : σ) (actions more : List α) :
    exec step s (actions ++ more) = (exec step s actions).bind fun mid => exec step mid more := by
  induction actions generalizing s with
  | nil => rfl
  | cons a rest ih =>
    rw [List.cons_append, exec, exec, Option.bind_assoc]
    congr 1
    funext mid
    exact ih mid

/-- What a step from an `inv` state guarantees under `ok` is met by every step of such a run. -/
theorem along_of_invariant (inv : σ → Prop) {ok good : σ → α → Prop}
    (guarantee : ∀ s a, inv s → ok s a → good s a)
    (preserved : ∀ s a s', inv s → ok s a → step s a = some s' → inv s')
    {s : σ} {actions : List α} (initial : inv s) (along : Along step ok s actions) :
    Along step good s actions := by
  induction actions generalizing s with
  | nil => trivial
  | cons a rest ih =>
    obtain ⟨first, later⟩ := along
    refine ⟨guarantee s a initial first, fun mid stepped => ?_⟩
    exact ih (preserved s a mid initial first stepped) (later mid stepped)

/-- Side conditions that agree wherever a step can be taken agree along a run. -/
theorem along_congr {ok good : σ → α → Prop}
    (agree : ∀ mid a s', step mid a = some s' → (good mid a ↔ ok mid a)) {s final : σ}
    {actions : List α} (ran : exec step s actions = some final) :
    Along step good s actions ↔ Along step ok s actions := by
  induction actions generalizing s with
  | nil => exact Iff.rfl
  | cons a rest ih =>
    obtain ⟨mid, stepped, ran'⟩ := Option.bind_eq_some_iff.mp ran
    refine and_congr (agree s a mid stepped) (forall_congr' fun s' => ?_)
    refine imp_congr_right fun same => ih ?_
    cases stepped.symm.trans same
    exact ran'

/-- Where a step keeps a property exactly if it meets `ok`, a run does so throughout if and only if
it passes through states with the property alone. -/
theorem along_iff_prefixes {ok : σ → α → Prop} {inv holds : σ → Prop}
    (exact : ∀ mid a s', inv mid → holds mid → step mid a = some s' →
      inv s' ∧ (holds s' ↔ ok mid a))
    {s final : σ} {actions : List α} (proper : inv s) (initial : holds s)
    (ran : exec step s actions = some final) :
    (∀ n mid, exec step s (actions.take n) = some mid → holds mid) ↔ Along step ok s actions := by
  induction actions generalizing s with
  | nil =>
    refine iff_of_true (fun n mid part => ?_) trivial
    rw [List.take_nil] at part
    cases part
    exact initial
  | cons a rest ih =>
    obtain ⟨mid, stepped, ran'⟩ := Option.bind_eq_some_iff.mp ran
    obtain ⟨proper', holds'⟩ := exact s a mid proper initial stepped
    -- every part but the empty one begins with `a`
    have part : ∀ n, exec step s ((a :: rest).take (n + 1)) = exec step mid (rest.take n) := by
      intro n
      rw [List.take_succ_cons, exec, stepped, Option.bind_some]
    constructor
    · intro every
      have held : holds mid := every 1 mid (by rw [part, List.take_zero, exec])
      refine ⟨holds'.mp held, fun s' same => ?_⟩
      cases stepped.symm.trans same
      apply (ih proper' held ran').mp
      intro n final' ran''
      exact every (n + 1) final' ((part n).trans ran'')
    · rintro ⟨first, later⟩ n final' ran''
      cases n with
      | zero =>
        cases ran''
        exact initial
      | succ n =>
        rw [part] at ran''
        exact (ih proper' (holds'.mpr first) ran').mpr (later mid stepped) n final' ran''

instance decidableAlong {ok : σ → α → Prop} [∀ s a, Decidable (ok s a)] :
    ∀ s actions, Decidable (Along step ok s actions)
  | _, [] => .isTrue trivial
  | s, a :: rest =>
    match stepped : step s a with
    | none => decidable_of_iff (ok s a) ⟨fun h => ⟨h, by simp [stepped]⟩, And.left⟩
    | some s' =>
      have : Decidable (Along step ok s' rest) := decidableAlong s' rest
      decidable_of_iff (ok s a ∧ Along step ok s' rest) (by simp [Along, stepped])

/-- A side condition that does not look at the state. -/
theorem along_of_forall {ok : α → Prop} (s : σ) {actions : List α} (each : ∀ a ∈ actions, ok a) :
    Along step (fun _ a => ok a) s actions := by
  induction actions generalizing s with
  | nil => trivial
  | cons a rest ih =>
    exact ⟨each a List.mem_cons_self,
      fun s' _ => ih s' fun b member => each b (List.mem_cons_of_mem _ member)⟩

theorem along_trivial (s : σ) (actions : List α) : Along step (fun _ _ => True) s actions :=
  along_of_forall s fun _ _ => trivial

end Enabled

section Faulting

variable (step : σ → α → Except ε σ)

/-- Perform calls one after the other; a fault ends the run. -/
def calls : σ → List α → Except ε σ
  | s, [] => .ok s
  | s, a :: rest =>
    match step s a with
    | .ok s' => calls s' rest
    | .error e => .error e

/-- Every call of the run is made in a state that meets `ok`. -/
def Legal (ok : σ → α → Prop) : σ → List α → Prop
  | _, [] => True
  | s, a :: rest => ok s a ∧ ∀ s', step s a = .ok s' → Legal ok s' rest

variable {step}

instance decidableLegal {ok : σ → α → Prop} [∀ s a, Decidable (ok s a)] :
    ∀ s actions, Decidable (Legal step ok s actions)
  | _, [] => .isTrue trivial
  | s, a :: rest =>
    match stepped : step s a with
    | .error _ => decidable_of_iff (ok s a) ⟨fun h => ⟨h, by simp [stepped]⟩, And.left⟩
    | .ok s' =>
      have : Decidable (Legal step ok s' rest) := decidableLegal s' rest
      decidable_of_iff (ok s a ∧ Legal step ok s' rest) (by simp [Legal, stepped])

/-- If a legal call from an `inv` state returns into an `inv` state, a legal run
returns into one. -/
theorem calls_safe (inv : σ → Prop) {ok : σ → α → Prop}
    (returns : ∀ s a, inv s → ok s a → ∃ s', step s a = .ok s' ∧ inv s')
    {s : σ} {actions : List α} (initial : inv s) (legal : Legal step ok s actions) :
    ∃ s', calls step s actions = .ok s' ∧ inv s' := by
  induction actions generalizing s with
  | nil => exact ⟨s, rfl, initial⟩
  | cons a rest ih =>
    obtain ⟨first, later⟩ := legal
    obtain ⟨mid, stepped, held⟩ := returns s a initial first
    obtain ⟨s', ran, final⟩ := ih held (later mid stepped)
    exact ⟨s', by rw [calls, stepped]; exact ran, final⟩

/-- What a legal call from an `inv` state guarantees is met by every call of a legal run. -/
theorem legal_of_invariant (inv : σ → Prop) {ok good : σ → α → Prop}
    (guarantee : ∀ s a, inv s → ok s a → good s a)
    (preserved : ∀ s a s', inv s → ok s a → step s a = .ok s' → inv s')
    {s : σ} {actions : List α} (initial : inv s) (legal : Legal step ok s actions) :
    Legal step good s actions := by
  induction actions generalizing s with
  | nil => trivial
  | cons a rest ih =>
    obtain ⟨first, later⟩ := legal
    refine ⟨guarantee s a initial first, fun mid stepped => ?_⟩
    exact ih (preserved s a mid initial first stepped) (later mid stepped)

/-- A legal call that returns from an `inv` state into an `inv` state keeps it along a legal run
that returns. -/
theorem legal_invariant (inv : σ → Prop) {ok : σ → α → Prop}
    (preserved : ∀ s a s', inv s → ok s a → step s a = .ok s' → inv s')
    {s s' : σ} {actions : List α} (initial : inv s) (legal : Legal step ok s actions)
    (ran : calls step s actions = .ok s') : inv s' := by
  induction actions generalizing s with
  | nil =>
    cases ran
    exact initial
  | cons a rest ih =>
    obtain ⟨first, later⟩ := legal
    simp only [calls] at ran
    split at ran
    next mid stepped => exact ih (preserved s a mid initial first stepped) (later mid stepped) ran
    next => cases ran

theorem legal_of_forall {ok : α → Prop} (s : σ) {actions : List α} (each : ∀ a ∈ actions, ok a) :
    Legal step (fun _ a => ok a) s actions := by
  induction actions generalizing s with
  | nil => trivial
  | cons a rest ih =>
    obtain ⟨first, others⟩ := List.forall_mem_cons.mp each
    exact ⟨first, fun mid _ => ih mid others⟩

/-- A run cut in two. -/
theorem calls_append {s s' : σ} {actions more : List α} :
    calls step s (actions ++ more) = .ok s' ↔
      ∃ mid, calls step s actions = .ok mid ∧ calls step mid more = .ok s' := by
  induction actions generalizing s with
  | nil =>
    constructor
    · intro ran
      exact ⟨s, rfl, ran⟩
    · rintro ⟨mid, same, ran⟩
      cases same
      exact ran
  | cons a rest ih =>
    simp only [List.cons_append, calls]
    cases step s a with
    | ok mid => exact ih
    | error fault => simp

theorem Legal.append {ok : σ → α → Prop} {s : σ} {actions more : List α}
    (legal : Legal step ok s (actions ++ more)) :
    Legal step ok s actions ∧ ∀ mid, calls step s actions = .ok mid → Legal step ok mid more := by
  induction actions generalizing s with
  | nil =>
    refine ⟨trivial, ?_⟩
    rintro mid ⟨⟩
    exact legal
  | cons a rest ih =>
    obtain ⟨first, later⟩ := legal
    refine ⟨⟨first, fun mid stepped => (ih (later mid stepped)).1⟩, ?_⟩
    intro final ran
    simp only [calls] at ran
    split at ran
    next mid stepped => exact (ih (later mid stepped)).2 final ran
    next => cases ran

/-- A call that returns from an `inv` state into an `inv` state keeps it along a run that
returns. -/
theorem calls_invariant (inv : σ → Prop) {ok : α → Prop}
    (preserved : ∀ s a s', inv s → ok a → step s a = .ok s' → inv s')
    {s s' : σ} {actions : List α} (initial : inv s) (each : ∀ a ∈ actions, ok a)
    (ran : calls step s actions = .ok s') : inv s' :=
  legal_invariant inv preserved initial (legal_of_forall s each) ran

/-- A legal run that faults does so with a fault that one of its calls may give. -/
theorem calls_fault (inv : σ → Prop) {ok : σ → α → Prop} {may : ε → Prop}
    (preserved : ∀ s a s', inv s → ok s a → step s a = .ok s' → inv s')
    (faults : ∀ s a fault, inv s → ok s a → step s a = .error fault → may fault)
    {s : σ} {actions : List α} {fault : ε} (initial : inv s) (legal : Legal step ok s actions)
    (ran : calls step s actions = .error fault) : may fault := by
  induction actions generalizing s with
  | nil => cases ran
  | cons a rest ih =>
    obtain ⟨first, later⟩ := legal
    simp only [calls] at ran
    split at ran
    next mid stepped => exact ih (preserved s a mid initial first stepped) (later mid stepped) ran
    next e stepped =>
      cases ran
      exact faults s a fault initial first stepped

/-- A run and one call more. -/
theorem calls_snoc {s s' : σ} {actions : List α} {a : α} :
    calls step s (actions ++ [a]) = .ok s' ↔
      ∃ mid, calls step s actions = .ok mid ∧ step mid a = .ok s' := by
  have last : ∀ mid, calls step mid [a] = .ok s' ↔ step mid a = .ok s' := by
    intro mid
    simp only [calls]
    cases step mid a <;> exact Iff.rfl
  simp only [calls_append, last]

theorem Legal.snoc {ok : σ → α → Prop} {s : σ} {actions : List α} {a : α} :
    Legal step ok s (actions ++ [a]) ↔
      Legal step ok s actions ∧ ∀ mid, calls step s actions = .ok mid → ok mid a := by
  constructor
  · intro legal
    obtain ⟨front, last⟩ := legal.append
    exact ⟨front, fun mid ran => (last mid ran).1⟩
  · rintro ⟨front, last⟩
    induction actions generalizing s with
    | nil => exact ⟨last s rfl, fun _ _ => trivial⟩
    | cons b rest ih =>
      obtain ⟨first, later⟩ := front
      refine ⟨first, fun mid stepped => ih (later mid stepped) fun final ran => ?_⟩
      apply last final
      simp only [calls, stepped]
      exact ran

/-- Where a call that returns keeps a property exactly if it meets `ok`, a run passes through states
with the property alone if and only if every call of it that returns meets `ok`. -/
theorem states_iff_legal {ok : σ → α → Prop} {holds : σ → Prop}
    (exact : ∀ s a s', holds s → step s a = .ok s' → (holds s' ↔ ok s a))
    {s : σ} (initial : holds s) (actions : List α) :
    (∀ n mid, calls step s (actions.take n) = .ok mid → holds mid) ↔
      Legal step (fun mid a => ∀ s', step mid a = .ok s' → ok mid a) s actions := by
  induction actions generalizing s with
  | nil =>
    refine iff_of_true (fun n mid part => ?_) trivial
    rw [List.take_nil] at part
    cases part
    exact initial
  | cons a rest ih =>
    -- every part but the empty one begins with `a`
    constructor
    · intro every
      have held : ∀ s', step s a = .ok s' → holds s' := by
        intro s' stepped
        apply every 1 s'
        simp only [List.take_succ_cons, List.take_zero, calls, stepped]
      refine ⟨fun s' stepped => (exact s a s' initial stepped).mp (held s' stepped), ?_⟩
      intro s' stepped
      apply (ih (held s' stepped)).mp
      intro n mid part
      apply every (n + 1) mid
      simp only [List.take_succ_cons, calls, stepped]
      exact part
    · rintro ⟨first, later⟩ n mid part
      cases n with
      | zero =>
        cases part
        exact initial
      | succ n =>
        simp only [List.take_succ_cons, calls] at part
        split at part
        next s' stepped =>
          have held : holds s' := (exact s a s' initial stepped).mpr (first s' stepped)
          exact (ih held).mpr (later s' stepped) n mid part
        next => cases part

/-- Where a call keeps a property of the calls so far exactly if it is legal, a run is legal if and
only if every part of it returns into a state that has the property. -/
theorem legal_iff_prefixes {ok : σ → α → Prop} {holds : List α → σ → Prop} {s : σ}
    (initial : holds [] s)
    (exact : ∀ history mid a, calls step s history = .ok mid → holds history mid →
      ((∃ s', step mid a = .ok s' ∧ holds (history ++ [a]) s') ↔ ok mid a))
    (actions : List α) :
    (∀ n, ∃ s', calls step s (actions.take n) = .ok s' ∧ holds (actions.take n) s') ↔
      Legal step ok s actions := by
  -- the parts of a run with one call more are those of the run and the whole
  induction actions using List.reverseRecOn with
  | nil =>
    refine iff_of_true (fun n => ?_) trivial
    rw [List.take_nil]
    exact ⟨s, rfl, initial⟩
  | append_singleton actions a ih =>
    rw [Legal.snoc, ← ih]
    have front : ∀ n, n ≤ actions.length → (actions ++ [a]).take n = actions.take n :=
      fun n inside => List.take_append_of_le_length inside
    have whole : ∀ n, actions.length < n → (actions ++ [a]).take n = actions ++ [a] :=
      fun n beyond => List.take_of_length_le (by rw [List.length_append]; exact beyond)
    constructor
    · intro every
      refine ⟨fun n => ?_, fun mid ran => ?_⟩
      · rw [List.take_eq_take_min, ← front _ (Nat.min_le_right _ _)]
        exact every _
      · -- the state the last call is made in, and the one it leads to
        obtain ⟨mid', ran', held⟩ := every actions.length
        rw [front _ (Nat.le_refl _), List.take_length] at ran' held
        cases ran.symm.trans ran'
        obtain ⟨s', ran'', held'⟩ := every (actions.length + 1)
        rw [whole _ (Nat.lt_succ_self _)] at ran'' held'
        obtain ⟨mid'', first, last⟩ := calls_snoc.mp ran''
        cases ran.symm.trans first
        exact (exact actions mid a ran held).mp ⟨s', last, held'⟩
    · rintro ⟨every, last⟩ n
      rcases Nat.lt_or_ge actions.length n with beyond | inside
      · obtain ⟨mid, ran, held⟩ := every actions.length
        rw [List.take_length] at ran held
        obtain ⟨s', stepped, held'⟩ := (exact actions mid a ran held).mpr (last mid ran)
        rw [whole n beyond]
        exact ⟨s', calls_snoc.mpr ⟨mid, ran, stepped⟩, held'⟩
      · rw [front n inside]
        exact every n

end Faulting

end Dwframe.Lib.Run
