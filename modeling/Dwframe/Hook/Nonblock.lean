import Dwframe.Hook.Descriptors

/-!
# The flag the user sees and the flag the kernel has

A socket with a context has two modes: the descriptor is non-blocking from `init` on, and the
context remembers the mode the user asked for. `asked` follows the requests as a plain descriptor
would. `F_GETFL` always reports it; the descriptor itself stays non-blocking until a `FIONBIO`
with 0, which `ioctl` passes on where `fcntl` would put the flag back.
-/
namespace Dwframe.Descriptors

open Lib Lib.Run

variable {s s' : Descriptors} {n : Nat} {flags : BitVec 32}

/-- The flags of a plain descriptor `n` after a call. -/
def asked (n : Nat) (flags : BitVec 32) : Call → BitVec 32
  | .setfl fd arg => if fd = n then arg else flags
  | .fionbio fd value =>
    if fd = n then (if value ≠ 0 then flags ||| O_NONBLOCK else flags &&& ~~~O_NONBLOCK) else flags
  | _ => flags

def Nonblocking (s : Descriptors) (n : Nat) : Prop :=
  ∃ file, s.kernel.files n = some file ∧ nonblock file.flags = true

/-- The context remembers the mode asked for, and the descriptor has the other flags. -/
structure Follows (s : Descriptors) (n : Nat) (flags : BitVec 32) : Prop where
  large : 64 ≤ s.datas.length
  context : ∃ ctx, s.entry n = some ctx ∧ ctx.isClosed = false ∧ ctx.isSocket = true ∧
    ctx.sysNonblock = true ∧ ctx.userNonBlock = nonblock flags
  file : ∃ file, s.kernel.files n = some file ∧ file.flags ||| O_NONBLOCK = flags ||| O_NONBLOCK

/-- `F_GETFL` reports what was asked for. -/
theorem Follows.getfl (follows : Follows s n flags) : fcntlGetfl n s = .ok flags s := by
  obtain ⟨ctx, found, opened, socket, -, user⟩ := follows.context
  obtain ⟨file, here, same⟩ := follows.file
  rw [fcntlGetfl_spec, found, Kernel.getfl_open here, reported]
  simp only [opened, socket, user]
  cases mode : nonblock flags with
  | true => simp [same, or_of_nonblock mode]
  | false =>
    have masked := congrArg (· &&& ~~~O_NONBLOCK) same
    simp only [or_and_not, and_not_of_blocking mode] at masked
    simp [masked]

/-- Neither the file nor the modes of the context change. -/
theorem Follows.kept (follows : Follows s n flags) (large : s.datas.length ≤ s'.datas.length)
    (files : s'.kernel.files n = s.kernel.files n)
    (context : s'.entry n = s.entry n ∨
      ∃ type v, s'.entry n = (s.entry n).map (·.setTimeout type v)) : Follows s' n flags := by
  refine ⟨Nat.le_trans follows.large large, ?_, by rw [files]; exact follows.file⟩
  obtain ⟨ctx, found, modes⟩ := follows.context
  rcases context with same | ⟨type, v, timed⟩
  · exact ⟨ctx, same.trans found, modes⟩
  · refine ⟨ctx.setTimeout type v, by rw [timed, found]; rfl, ?_⟩
    cases type <;> exact modes

/-- The calls that change what is asked for, and the end of the descriptor. -/
def Concerns (n : Nat) : Call → Prop
  | .close _ fd | .setfl fd _ | .fionbio fd _ => fd = n
  | _ => False

/-- Every other call leaves the file and the modes of an open descriptor alone. -/
theorem effect_kept {call : Call} (opened : s.kernel.files n ≠ none) (offered : s.Offered call)
    (ran : step s call = .ok s') (unconcerned : ¬Concerns n call) (here : call.number = n) :
    (s.effect call).1 = s.kernel.files n ∧ ((s.effect call).2 = s.entry n ∨
      ∃ type v, (s.effect call).2 = (s.entry n).map (·.setTimeout type v)) := by
  subst here
  cases call with
  | socket hook_enable made =>
    cases made with
    | none => exact ⟨rfl, .inl rfl⟩
    | some new => exact absurd offered.1 opened
  | accept hook_enable sockfd made =>
    cases made with
    | none => exact ⟨rfl, .inl rfl⟩
    | some new => exact absurd offered.1 opened
  | close hook_enable fd =>
    rcases negative_or_natCast fd with negative | ⟨m, rfl⟩
    · rw [effect, if_pos negative]
      exact ⟨rfl, .inl rfl⟩
    · exact absurd rfl unconcerned
  | setfl fd arg =>
    rcases negative_or_natCast fd with negative | ⟨m, rfl⟩
    · refine (not_after ran ?_).elim
      rw [fcntlSetfl, bind_apply, get_negative negative]
    · exact absurd rfl unconcerned
  | getfl fd => exact ⟨rfl, .inl rfl⟩
  | fionbio fd value =>
    rcases negative_or_natCast fd with negative | ⟨m, rfl⟩
    · refine (not_after ran ?_).elim
      rw [ioctlFionbio, bind_apply, get_negative negative]
    · exact absurd rfl unconcerned
  | setTimeout hook_enable fd type v =>
    rw [effect]
    split
    next => exact ⟨rfl, .inl rfl⟩
    next =>
      cases hook_enable with
      | false => exact ⟨rfl, .inl rfl⟩
      | true => exact ⟨rfl, .inr ⟨type, v, rfl⟩⟩

theorem step_unconcerned {call : Call} (follows : Follows s n flags) (offered : s.Offered call)
    (ran : step s call = .ok s') (unconcerned : ¬Concerns n call) :
    Follows s' n flags ∧ s'.kernel.files n = s.kernel.files n := by
  have becomes := step_becomes follows.large offered ran
  obtain ⟨file, opened, -⟩ := follows.file
  have isOpen : s.kernel.files n ≠ none := by
    rw [opened]
    exact Option.some_ne_none _
  by_cases here : call.number = n
  · obtain ⟨files, context⟩ := effect_kept isOpen offered ran unconcerned here
    rw [here] at becomes
    have files' : s'.kernel.files n = s.kernel.files n := by
      rw [becomes.files, Function.update_self, files]
    refine ⟨follows.kept becomes.large files' ?_, files'⟩
    rw [becomes.entry, Function.update_self]
    exact context
  · have files' : s'.kernel.files n = s.kernel.files n := by
      rw [becomes.files, Function.update_of_ne (Ne.symm here)]
    refine ⟨follows.kept becomes.large files' (.inl ?_), files'⟩
    rw [becomes.entry, Function.update_of_ne (Ne.symm here)]

theorem remembered_open {ctx : FdCtx} (opened : ctx.isClosed = false)
    (socket : ctx.isSocket = true) (mode : Bool) :
    remembered (some ctx) mode = some { ctx with userNonBlock := mode } := by
  simp [remembered, opened, socket]

theorem step_setfl (follows : Follows s n flags) (arg : BitVec 32)
    (ran : step s (.setfl n arg) = .ok s') : Follows s' n arg ∧ Nonblocking s' n := by
  obtain ⟨result, s'', stored, becomes⟩ := fcntlSetfl_spec s n arg
  cases eq_of_after ran stored
  obtain ⟨ctx, found, opened, socket, sys, -⟩ := follows.context
  obtain ⟨file, here, -⟩ := follows.file
  have passed : adjusted (some ctx) arg = arg ||| O_NONBLOCK := by
    simp [adjusted, opened, socket, sys]
  rw [found, here, remembered_open opened socket, passed, Option.map_some] at becomes
  have file' : s'.kernel.files n = some { file with flags := arg ||| O_NONBLOCK } := by
    rw [becomes.files, Function.update_self]
  have context : s'.entry n = some { ctx with userNonBlock := nonblock arg } := by
    rw [becomes.entry, Function.update_self]
  refine ⟨⟨Nat.le_trans follows.large becomes.large, ⟨_, context, opened, socket, sys, rfl⟩,
    ⟨_, file', or_or_nonblock arg⟩⟩, ⟨_, file', nonblock_or arg⟩⟩

/-- `FIONBIO` reaches the descriptor as it is: a 0 makes it block. -/
theorem step_fionbio (follows : Follows s n flags) (value : BitVec 32)
    (ran : step s (.fionbio n value) = .ok s') :
    Follows s' n (asked n flags (.fionbio n value)) ∧ (Nonblocking s' n ↔ value ≠ 0) := by
  obtain ⟨result, s'', switched, becomes⟩ := ioctlFionbio_spec s n value
  cases eq_of_after ran switched
  obtain ⟨ctx, found, opened, socket, sys, -⟩ := follows.context
  obtain ⟨file, here, same⟩ := follows.file
  rw [found, here, remembered_open opened socket, Option.map_some] at becomes
  have file' : s'.kernel.files n = some (Kernel.switch value file) := by
    rw [becomes.files, Function.update_self]
  have context : s'.entry n = some { ctx with userNonBlock := value != 0 } := by
    rw [becomes.entry, Function.update_self]
  have large := Nat.le_trans follows.large becomes.large
  by_cases zero : value = 0
  · subst zero
    refine ⟨⟨large, ⟨_, context, opened, socket, sys, ?_⟩, ⟨_, file', ?_⟩⟩, ?_⟩
    · simp [asked]
    · simp [asked, Kernel.switch, same]
    · simp [Nonblocking, file', Kernel.switch]
  · have wants : asked n flags (.fionbio n value) = flags ||| O_NONBLOCK := by
      rw [asked, if_pos rfl, if_pos zero]
    have becomes_set : Kernel.switch value file =
        { file with flags := file.flags ||| O_NONBLOCK } := by
      rw [Kernel.switch, if_pos zero]
    rw [becomes_set] at file'
    rw [wants]
    refine ⟨⟨large, ⟨_, context, opened, socket, sys, ?_⟩, ⟨_, file', ?_⟩⟩, ?_⟩
    · rw [nonblock_or]
      exact bne_iff_ne.mpr zero
    · rw [or_or_nonblock, or_or_nonblock, same]
    · exact iff_of_true ⟨_, file', nonblock_or _⟩ zero

/-! ### Runs -/

/-- The flags of a plain descriptor after some calls. -/
def askedAll (n : Nat) (flags : BitVec 32) (calls : List Call) : BitVec 32 :=
  calls.foldl (asked n) flags

/-- The descriptor is not closed. -/
def StaysOpen (n : Nat) (calls : List Call) : Prop := ∀ hook_enable, .close hook_enable n ∉ calls

/-- `socket` from a hooked thread, or `accept`, is answered with `file` under the number `n`. -/
def Makes (n : Nat) (file : File) : Call → Prop
  | .socket hook_enable made => hook_enable = true ∧ made = some (n, file)
  | .accept _ _ made => made = some (n, file)
  | _ => False

/-- A socket with a new context starts out blocking for its user. -/
theorem made_follows {call : Call} {file : File} (large : 64 ≤ s.datas.length)
    (offered : s.Offered call) (makes : Makes n file call) (new : s.entry n = none)
    (ran : step s call = .ok s') (managed : s'.entry n ≠ none) :
    Follows s' n (file.flags &&& ~~~O_NONBLOCK) ∧ Nonblocking s' n := by
  have becomes := step_becomes large offered ran
  have registered : call.number = n ∧ s.effect call = s.registered n file := by
    cases call with
    | socket hook_enable made =>
      obtain ⟨rfl, rfl⟩ := makes
      exact ⟨rfl, rfl⟩
    | accept hook_enable sockfd made =>
      cases makes
      refine ⟨rfl, ?_⟩
      rw [effect]
      split
      next => rfl
      next deaf =>
        -- a refused `accept` makes no context
        rw [effect, if_neg deaf] at becomes
        refine absurd ?_ managed
        rw [becomes.entry]
        exact (Function.update_self ..).trans new
    | _ => cases makes
  rw [registered.1, registered.2, Descriptors.registered, new] at becomes
  have here : s'.kernel.files n = some { file with flags := file.flags ||| O_NONBLOCK } := by
    rw [becomes.files, Function.update_self]
  have context : s'.entry n = some (FdCtx.fresh n) := by rw [becomes.entry, Function.update_self]
  refine ⟨⟨Nat.le_trans large becomes.large, ⟨_, context, rfl, rfl, rfl, ?_⟩, ⟨_, here, ?_⟩⟩,
    ⟨_, here, nonblock_or _⟩⟩
  · exact (nonblock_and_not file.flags).symm
  · rw [or_or_nonblock, and_not_or]

/-- One call follows the request it makes. -/
theorem step_follows {call : Call} (follows : Follows s n flags) (offered : s.Offered call)
    (ran : step s call = .ok s') (stays : ∀ hook_enable, call ≠ .close hook_enable n) :
    Follows s' n (asked n flags call) ∧
      (Nonblocking s n → call ≠ .fionbio n 0 → Nonblocking s' n) := by
  by_cases concerns : Concerns n call
  · cases call with
    | close hook_enable fd =>
      cases concerns
      exact absurd rfl (stays hook_enable)
    | setfl fd arg =>
      cases concerns
      obtain ⟨follows', nonblocking⟩ := step_setfl follows arg ran
      rw [asked, if_pos rfl]
      exact ⟨follows', fun _ _ => nonblocking⟩
    | fionbio fd value =>
      cases concerns
      obtain ⟨follows', nonblocking⟩ := step_fionbio follows value ran
      refine ⟨follows', fun _ other => nonblocking.mpr ?_⟩
      rintro rfl
      exact other rfl
    | _ => cases concerns
  · obtain ⟨follows', files⟩ := step_unconcerned follows offered ran concerns
    have same : asked n flags call = flags := by
      cases call with
      | setfl fd arg => exact if_neg concerns
      | fionbio fd value => exact if_neg concerns
      | _ => rfl
    rw [same, Nonblocking, Nonblocking, files]
    exact ⟨follows', fun nonblocking _ => nonblocking⟩

theorem run_follows {calls : List Call} (follows : Follows s n flags)
    (legal : Legal step Offered s calls) (ran : Run.calls step s calls = .ok s')
    (stays : StaysOpen n calls) :
    Follows s' n (askedAll n flags calls) ∧
      (Nonblocking s n → .fionbio n 0 ∉ calls → Nonblocking s' n) := by
  induction calls generalizing s flags with
  | nil =>
    cases ran
    exact ⟨follows, fun nonblocking _ => nonblocking⟩
  | cons call rest ih =>
    obtain ⟨offered, later⟩ := legal
    simp only [Run.calls] at ran
    split at ran
    next mid stepped =>
      obtain ⟨follows', nonblocking'⟩ := step_follows follows offered stepped
        fun hook_enable closes => stays hook_enable (closes ▸ List.mem_cons_self)
      obtain ⟨final, kept⟩ := ih follows' (later mid stepped) ran
        fun hook_enable member => stays hook_enable (List.mem_cons_of_mem _ member)
      refine ⟨final, fun nonblocking never => ?_⟩
      rw [List.mem_cons, not_or] at never
      obtain ⟨first, others⟩ := never
      exact kept (nonblocking' nonblocking (Ne.symm first)) others
    next => cases ran

theorem step_large {call : Call} (large : 64 ≤ s.datas.length) (offered : s.Offered call)
    (ran : step s call = .ok s') : 64 ≤ s'.datas.length :=
  Nat.le_trans large (step_becomes large offered ran).large

/-- A socket that `socket` or `accept` gave a new context, over any calls while it is open: the
descriptor stays non-blocking and `F_GETFL` reports the flags the user asked for last, throughout,
exactly when no `FIONBIO` with 0 is among the calls. -/
theorem nonblock_kept_iff {kernel : Kernel} {history calls : List Call} {call : Call} {file : File}
    {created final : Descriptors} (past : Legal step Offered (start kernel) history)
    (reached : Run.calls step (start kernel) history = .ok s) (offered : s.Offered call)
    (makes : Makes n file call) (new : s.entry n = none) (made : step s call = .ok created)
    (managed : created.entry n ≠ none) (legal : Legal step Offered created calls)
    (ran : Run.calls step created calls = .ok final) (stays : StaysOpen n calls) :
    (∀ done rest mid, calls = done ++ rest → Run.calls step created done = .ok mid →
      Nonblocking mid n ∧
      fcntlGetfl n mid = .ok (askedAll n (file.flags &&& ~~~O_NONBLOCK) done) mid) ↔
    .fionbio n 0 ∉ calls := by
  have large : 64 ≤ s.datas.length := legal_invariant (fun s => 64 ≤ s.datas.length)
    (fun _ _ _ large offered ran => step_large large offered ran) (by simp [start]) past reached
  obtain ⟨follows, nonblocking⟩ := made_follows large offered makes new made managed
  constructor
  · intro throughout member
    -- right after the call the descriptor blocks
    obtain ⟨done, rest, rfl⟩ := List.append_of_mem member
    obtain ⟨mid, before, after⟩ := calls_append.mp ran
    obtain ⟨legal', -⟩ := legal.append
    have stays' : StaysOpen n done :=
      fun hook_enable closes => stays hook_enable (List.mem_append_left _ closes)
    have follows' := (run_follows follows legal' before stays').1
    simp only [Run.calls] at after
    split at after
    next blocking stepped =>
      have here : Run.calls step created (done ++ [.fionbio n 0]) = .ok blocking := by
        refine calls_append.mpr ⟨mid, before, ?_⟩
        simp only [Run.calls, stepped]
      have claimed := (throughout (done ++ [.fionbio n 0]) rest blocking (by simp) here).1
      exact (step_fionbio follows' 0 stepped).2.mp claimed rfl
    next => cases after
  · intro never done rest mid cut ran'
    subst cut
    have stays' : StaysOpen n done :=
      fun hook_enable closes => stays hook_enable (List.mem_append_left _ closes)
    obtain ⟨follows', kept⟩ := run_follows follows legal.append.1 ran' stays'
    exact ⟨kept nonblocking fun member => never (List.mem_append_left _ member), follows'.getfl⟩

/-- Blocking mode asked for through `fcntl`, then non-blocking mode through `ioctl`. -/
theorem nonblock_kept_iff_two_requests :
    ∃ created final, step (start ⟨fun _ => none⟩) (.socket true (some (3, ⟨true, 2⟩))) =
        .ok created ∧
      Run.calls step created [.setfl 3 2, .fionbio 3 1] = .ok final ∧ Nonblocking final 3 ∧
      fcntlGetfl 3 final = .ok 0x802 final := by
  obtain ⟨created, made⟩ : ∃ created, step (start ⟨fun _ => none⟩)
    (.socket true (some (3, ⟨true, 2⟩))) = .ok created := ⟨_, rfl⟩
  have managed : created.entry 3 ≠ none := by
    cases made
    decide
  obtain ⟨final, ran⟩ : ∃ final, Run.calls step created [.setfl 3 2, .fionbio 3 1] = .ok final := by
    cases made
    exact ⟨_, rfl⟩
  have legal : Legal step Offered created [.setfl 3 2, .fionbio 3 1] :=
    ⟨trivial, fun _ _ => ⟨trivial, fun _ _ => trivial⟩⟩
  have past : Legal step Offered (start ⟨fun _ => none⟩) [] := trivial
  have offered : (start ⟨fun _ => none⟩).Offered (.socket true (some (3, ⟨true, 2⟩))) := ⟨rfl, rfl⟩
  have makes : Makes 3 ⟨true, 2⟩ (.socket true (some (3, ⟨true, 2⟩))) := ⟨rfl, rfl⟩
  have throughout := (nonblock_kept_iff past rfl offered makes rfl made managed legal ran
    (by intro hook_enable; simp)).mpr (by simp)
  obtain ⟨nonblocking, reports⟩ := throughout _ [] final (List.append_nil _).symm ran
  exact ⟨created, final, made, ran, nonblocking, reports⟩

/-- Asking for blocking mode through `ioctl` makes the descriptor of a managed socket block. -/
theorem fionbio_blocks :
    ∃ created final, step (start ⟨fun _ => none⟩) (.socket true (some (3, ⟨true, 2⟩))) =
        .ok created ∧ step created (.fionbio 3 0) = .ok final ∧ ¬Nonblocking final 3 := by
  refine ⟨_, _, rfl, rfl, ?_⟩
  rintro ⟨file, here, nonblocking⟩
  cases here
  exact absurd nonblocking (by decide)

end Dwframe.Descriptors
