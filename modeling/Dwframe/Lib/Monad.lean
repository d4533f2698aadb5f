/-!
# Running computations with state and faults

How the operations of `EStateM` act on a state, so that a `do` block can be run one statement at a
time, and how an `Except` block that returned is taken apart, also over a list.
-/
namespace Dwframe.Lib

variable {ε σ α β : Type}

@[simp] theorem bind_apply (x : EStateM ε σ α) (f : α → EStateM ε σ β) (s : σ) :
    (x >>= f) s = match x s with
      | .ok a s' => f a s'
      | .error fault s' => .error fault s' := by
  change EStateM.bind x f s = _
  unfold EStateM.bind
  cases x s <;> rfl

@[simp] theorem pure_apply (a : α) (s : σ) : (pure a : EStateM ε σ α) s = .ok a s := rfl

@[simp] theorem map_apply (f : α → β) (x : EStateM ε σ α) (s : σ) :
    (f <$> x) s = match x s with
      | .ok a s' => .ok (f a) s'
      | .error fault s' => .error fault s' := by
  change EStateM.map f x s = _
  unfold EStateM.map
  cases x s <;> rfl

@[simp] theorem set_apply (s s' : σ) : (set s' : EStateM ε σ PUnit) s = .ok ⟨⟩ s' := rfl

@[simp] theorem get_apply (s : σ) : (get : EStateM ε σ σ) s = .ok s s := rfl

/-- A block that returned has returned from each of its parts. -/
theorem bind_eq_ok {x : Except ε α} {f : α → Except ε β} {b : β} :
    x >>= f = .ok b ↔ ∃ a, x = .ok a ∧ f a = .ok b := by
  cases x with
  | ok a => simp [bind, Except.bind]
  | error fault => simp [bind, Except.bind]

/-- A block that faults does so in one of its parts. -/
theorem bind_eq_error {x : Except ε α} {f : α → Except ε β} {fault : ε} :
    x >>= f = .error fault ↔ x = .error fault ∨ ∃ a, x = .ok a ∧ f a = .error fault := by
  cases x with
  | ok a => simp [bind, Except.bind]
  | error fault' => simp [bind, Except.bind]

/-- A block gives a value that meets `post`, or a fault that is `fine`. -/
def Yields (fine : ε → Prop) (post : α → Prop) : Except ε α → Prop
  | .ok a => post a
  | .error fault => fine fault

theorem Yields.bind {fine : ε → Prop} {mid : α → Prop} {post : β → Prop} {x : Except ε α}
    {f : α → Except ε β} (first : Yields fine mid x) (rest : ∀ a, mid a → Yields fine post (f a)) :
    Yields fine post (x >>= f) := by
  cases x with
  | ok a => exact rest a first
  | error fault => exact first

theorem Yields.mono {fine : ε → Prop} {strong post : α → Prop} {x : Except ε α}
    (yields : Yields fine strong x) (weaker : ∀ a, strong a → post a) : Yields fine post x := by
  cases x with
  | ok a => exact weaker a yields
  | error fault => exact yields

/-! ### Lists -/

section Lists

variable {f : α → Except ε β} {g : β → Except ε α}

theorem mapM_cons_eq_ok {x : α} {xs : List α} {ys : List β} :
    (x :: xs).mapM f = .ok ys ↔ ∃ y rest, f x = .ok y ∧ xs.mapM f = .ok rest ∧ ys = y :: rest := by
  rw [List.mapM_cons, bind_eq_ok]
  constructor
  · rintro ⟨y, first, others⟩
    obtain ⟨rest, later, whole⟩ := bind_eq_ok.mp others
    cases whole
    exact ⟨y, rest, first, later, rfl⟩
  · rintro ⟨y, rest, first, later, rfl⟩
    exact ⟨y, first, bind_eq_ok.mpr ⟨rest, later, rfl⟩⟩

/-- A list goes there and back if and only if its elements do. -/
theorem mapM_back_iff {xs : List α} :
    (∃ ys, xs.mapM f = .ok ys ∧ ys.mapM g = .ok xs) ↔
      ∀ x ∈ xs, ∃ y, f x = .ok y ∧ g y = .ok x := by
  induction xs with
  | nil =>
    refine iff_of_true ⟨[], rfl, rfl⟩ fun x member => ?_
    exact absurd member List.not_mem_nil
  | cons x rest ih =>
    rw [List.forall_mem_cons, ← ih]
    constructor
    · rintro ⟨ys, there, back⟩
      obtain ⟨y, ys', first, later, rfl⟩ := mapM_cons_eq_ok.mp there
      obtain ⟨x', rest', first', later', same⟩ := mapM_cons_eq_ok.mp back
      cases same
      exact ⟨⟨y, first, first'⟩, ys', later, later'⟩
    · rintro ⟨⟨y, first, first'⟩, ys, later, later'⟩
      exact ⟨y :: ys, mapM_cons_eq_ok.mpr ⟨y, ys, first, later, rfl⟩,
        mapM_cons_eq_ok.mpr ⟨x, rest, first', later', rfl⟩⟩

end Lists

end Dwframe.Lib
