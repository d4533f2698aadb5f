import Dwframe.Hook.Descriptors

/-!
# A context belongs to its descriptor

`get(fd, true)` returns a context that is there already, whatever descriptor it was made for. The
contexts in the table belong to open descriptors as long as every close of a number with a
context goes through the hooked `close`, the only place that removes one.
-/
namespace Dwframe.Descriptors

open Lib Lib.Run

variable {s s' : Descriptors}

/-- The context of `n` is as good as new and the descriptor does not block. -/
structure Fresh (s : Descriptors) (n : Nat) : Prop where
  context : ∃ ctx, s.entry n = some ctx ∧ ctx.userNonBlock = false ∧ ctx.recvTimeout = -1 ∧
    ctx.sendTimeout = -1 ∧ some ctx.isSocket = (s.kernel.files n).map File.isSocket
  nonblocking : ∃ file, s.kernel.files n = some file ∧ nonblock file.flags = true

/-- Every context belongs to an open descriptor. -/
structure Live (s : Descriptors) : Prop where
  large : 64 ≤ s.datas.length
  opened : ∀ n, s.kernel.files n = none → s.entry n = none

/-- No thread without hooks closes a number that has a context. -/
def Careful (s : Descriptors) : Call → Prop
  | .close false fd => 0 ≤ fd → s.entry fd.toNat = none
  | _ => True

theorem start_live (kernel : Kernel) : Live (start kernel) where
  large := by simp [start]
  opened := by
    intro n _
    simp only [start, entry, List.getElem?_replicate]
    split <;> rfl

theorem Becomes.live {n : Nat} {file : Option File} {ctx : Option FdCtx} (live : Live s)
    (becomes : Becomes s s' n file ctx) (opened : file = none → ctx = none) : Live s' := by
  refine ⟨Nat.le_trans live.large becomes.large, fun m closed => ?_⟩
  rw [becomes.files] at closed
  rw [becomes.entry]
  by_cases same : m = n
  · subst same
    rw [Function.update_self] at closed ⊢
    exact opened closed
  · rw [Function.update_of_ne same] at closed ⊢
    exact live.opened m closed

theorem registered_opened (s : Descriptors) (n : Nat) (file : File) :
    (s.registered n file).1 ≠ none := by
  rw [registered]
  split <;> exact Option.some_ne_none _

/-- A call that closes a number also takes its context away. -/
theorem effect_opened (live : Live s) {call : Call} (careful : s.Careful call)
    (closed : (s.effect call).1 = none) : (s.effect call).2 = none := by
  cases call with
  | socket hook_enable made =>
    cases made with
    | none => exact live.opened _ closed
    | some new =>
      cases hook_enable with
      | false => cases closed
      | true => exact absurd closed (registered_opened s _ _)
  | accept hook_enable sockfd made =>
    cases made with
    | none => exact live.opened _ closed
    | some new =>
      rw [effect] at closed ⊢
      split at closed
      next => exact absurd closed (registered_opened s _ _)
      next deaf =>
        rw [if_neg deaf]
        exact live.opened _ closed
  | close hook_enable fd =>
    rw [effect] at closed ⊢
    split at closed
    next negative =>
      rw [if_pos negative]
      exact live.opened _ closed
    next natural =>
      -- the one call that empties a number: the hook deletes the context, `Careful` has none
      rw [if_neg natural]
      cases hook_enable with
      | true => rfl
      | false => exact careful (by omega)
  | setfl fd arg =>
    rw [effect, Option.map_eq_none_iff] at closed
    rw [effect, live.opened _ closed]
    rfl
  | getfl fd => exact live.opened _ closed
  | fionbio fd value =>
    rw [effect, Option.map_eq_none_iff] at closed
    rw [effect, live.opened _ closed]
    rfl
  | setTimeout hook_enable fd type v =>
    rw [effect] at closed ⊢
    split at closed
    next negative =>
      rw [if_pos negative]
      exact live.opened _ closed
    next natural =>
      rw [if_neg natural]
      simp only at closed ⊢
      rw [live.opened _ closed]
      cases hook_enable <;> rfl

theorem step_live (live : Live s) {call : Call} (allowed : s.Offered call ∧ s.Careful call)
    (ran : step s call = .ok s') : Live s' :=
  (step_becomes live.large allowed.1 ran).live live (effect_opened live allowed.2)

/-- A number without a context gets a new one. -/
theorem Becomes.fresh {n : Nat} {file : File} (socket : file.isSocket = true)
    (absent : s.entry n = none)
    (becomes : Becomes s s' n (s.registered n file).1 (s.registered n file).2) : Fresh s' n := by
  rw [registered, absent] at becomes
  have here : s'.kernel.files n = some { file with flags := file.flags ||| O_NONBLOCK } := by
    rw [becomes.files, Function.update_self]
  have context : s'.entry n = some (FdCtx.fresh n) := by rw [becomes.entry, Function.update_self]
  refine ⟨⟨_, context, rfl, rfl, rfl, ?_⟩, ⟨_, here, nonblock_or _⟩⟩
  rw [here, Option.map_some, socket]
  rfl

/-- An open descriptor that is closed behind the back of the table gets the old context again, and
blocks. -/
theorem stale_after_close {n : Nat} {ctx : FdCtx} (large : 64 ≤ s.datas.length)
    (found : s.entry n = some ctx) :
    ∃ mid s', step s (.close false n) = .ok mid ∧
      mid.Offered (.socket true (some (n, ⟨true, 0⟩))) ∧
      socket true (some (n, ⟨true, 0⟩)) mid = .ok (n : Int) s' ∧ ¬Fresh s' n := by
  obtain ⟨result, mid, closed, becomes⟩ := close_spec false s n
  have gone : mid.kernel.files n = none := by rw [becomes.files, Function.update_self]
  have kept : mid.entry n = some ctx := by rw [becomes.entry, Function.update_self, ← found]; rfl
  have socket : (File.mk true 0).isSocket = true := rfl
  obtain ⟨s', made, again⟩ := socket_hooked (Nat.le_trans large becomes.large) socket n
  rw [registered, kept] at again
  refine ⟨mid, s', by rw [step, closed]; rfl, ⟨gone, rfl⟩, made, fun fresh => ?_⟩
  obtain ⟨file, here, nonblocking⟩ := fresh.nonblocking
  rw [again.files, Function.update_self] at here
  cases here
  exact absurd nonblocking (by decide)

theorem socket_fresh (live : Live s) {made : Option (Nat × File)} {fd : Int}
    (offered : s.Offered (.socket true made)) (returned : socket true made s = .ok fd s')
    (valid : fd ≠ -1) : ∃ n : Nat, fd = n ∧ Fresh s' n := by
  cases made with
  | none =>
    cases returned
    exact absurd rfl valid
  | some new =>
    obtain ⟨n, file⟩ := new
    obtain ⟨s'', made, becomes⟩ := socket_hooked live.large offered.2 n
    rw [made] at returned
    cases returned
    exact ⟨n, rfl, becomes.fresh offered.2 (live.opened n offered.1)⟩

theorem accept_fresh (live : Live s) {hook_enable : Bool} {sockfd : Int}
    {made : Option (Nat × File)} {fd : Int} (offered : s.Offered (.accept hook_enable sockfd made))
    (returned : accept hook_enable sockfd made s = .ok fd s') (valid : fd ≠ -1) :
    ∃ n : Nat, fd = n ∧ Fresh s' n := by
  rcases acceptIo_cases s hook_enable sockfd made with ⟨-, -, failed⟩ | ⟨-, answered⟩ |
    ⟨-, refused⟩
  · rw [accept, bind_apply, failed] at returned
    cases returned
  · cases made with
    | none =>
      rw [accept, bind_apply, answered] at returned
      cases returned
      exact absurd rfl valid
    | some new =>
      obtain ⟨n, file⟩ := new
      obtain ⟨s'', made, becomes⟩ := accept_made live.large offered.2 hook_enable sockfd n answered
      rw [made] at returned
      cases returned
      exact ⟨n, rfl, becomes.fresh offered.2 (live.opened n offered.1)⟩
  · rw [accept, bind_apply, refused] at returned
    cases returned
    exact absurd rfl valid

/-- In every run in which no thread without hooks closes a number that has a context, a descriptor
that `socket` or `accept` returns has a new context and does not block. Any such close can be
followed by a `socket` call for which this fails. -/
theorem returned_fresh {kernel : Kernel} {history : List Call}
    (legal : Legal step (fun s call => s.Offered call ∧ s.Careful call) (start kernel) history)
    (ran : calls step (start kernel) history = .ok s) :
    (∀ made fd s', s.Offered (.socket true made) → socket true made s = .ok fd s' → fd ≠ -1 →
      ∃ n : Nat, fd = n ∧ Fresh s' n) ∧
    (∀ hook_enable sockfd made fd s', s.Offered (.accept hook_enable sockfd made) →
      accept hook_enable sockfd made s = .ok fd s' → fd ≠ -1 → ∃ n : Nat, fd = n ∧ Fresh s' n) ∧
    ∀ n ctx, s.entry n = some ctx →
      ∃ mid s', step s (.close false n) = .ok mid ∧
        mid.Offered (.socket true (some (n, ⟨true, 0⟩))) ∧
        socket true (some (n, ⟨true, 0⟩)) mid = .ok (n : Int) s' ∧ ¬Fresh s' n := by
  have live : Live s := legal_invariant Live
    (fun _ _ _ live allowed ran => step_live live allowed ran) (start_live kernel) legal ran
  refine ⟨?_, ?_, ?_⟩
  · intro made fd s' offered returned valid
    exact socket_fresh live offered returned valid
  · intro hook_enable sockfd made fd s' offered returned valid
    exact accept_fresh live offered returned valid
  · intro n ctx found
    exact stale_after_close live.large found

/-- The number 3 is closed by a hooked thread and handed out again. -/
theorem returned_fresh_after_close :
    ∃ s s', calls step (start ⟨fun _ => none⟩)
        [.socket true (some (3, ⟨true, 2⟩)), .close true 3] = .ok s ∧
      socket true (some (3, ⟨true, 2⟩)) s = .ok 3 s' ∧ Fresh s' 3 := by
  obtain ⟨s, reached⟩ : ∃ s, calls step (start ⟨fun _ => none⟩)
    [.socket true (some (3, ⟨true, 2⟩)), .close true 3] = .ok s := ⟨_, rfl⟩
  obtain ⟨s', returned⟩ : ∃ s', socket true (some (3, ⟨true, 2⟩)) s = .ok 3 s' := by
    cases reached
    exact ⟨_, rfl⟩
  have legal : Legal step (fun s call => s.Offered call ∧ s.Careful call) (start ⟨fun _ => none⟩)
      [.socket true (some (3, ⟨true, 2⟩)), .close true 3] :=
    ⟨⟨⟨rfl, rfl⟩, trivial⟩, fun _ _ => ⟨⟨trivial, trivial⟩, fun _ _ => trivial⟩⟩
  have offered : s.Offered (.socket true (some (3, ⟨true, 2⟩))) := by
    cases reached
    exact ⟨rfl, rfl⟩
  obtain ⟨n, same, fresh⟩ := (returned_fresh legal reached).1 _ _ _ offered returned (by decide)
  cases Int.ofNat.inj same
  exact ⟨s, s', reached, returned, fresh⟩

/-- Closed by a thread without hooks, the number 3 keeps its context: the socket that gets the
number next still blocks. -/
theorem reused_number_blocks :
    ∃ s s', calls step (start ⟨fun _ => none⟩)
        [.socket true (some (3, ⟨true, 2⟩)), .close false 3] = .ok s ∧
      Legal step Offered (start ⟨fun _ => none⟩)
        [.socket true (some (3, ⟨true, 2⟩)), .close false 3] ∧
      s.Offered (.socket true (some (3, ⟨true, 2⟩))) ∧
      socket true (some (3, ⟨true, 2⟩)) s = .ok 3 s' ∧ ¬Fresh s' 3 := by
  refine ⟨_, _, rfl, ⟨⟨rfl, rfl⟩, fun _ _ => ⟨trivial, fun _ _ => trivial⟩⟩, ⟨rfl, rfl⟩, rfl, ?_⟩
  rintro ⟨-, file, here, nonblocking⟩
  cases here
  exact absurd nonblocking (by decide)

end Dwframe.Descriptors
