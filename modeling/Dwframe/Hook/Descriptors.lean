import Dwframe.Hook.FdManager
import Dwframe.Lib.Run

/-!
# What the hooked calls do to the two tables

A state is described by `entry`, the context of a number, and by the kernel's files. Each call has
one lemma that says what it does to the number it is about; `step_frame` says that the other
numbers keep their file and their context.
-/
namespace Dwframe

open Lib

/-! ### One bit of the flags -/

private theorem nonblock_bit : O_NONBLOCK = BitVec.twoPow 32 11 := rfl

theorem nonblock_eq_bit (flags : BitVec 32) : nonblock flags = flags.getLsbD 11 := by
  rw [nonblock, nonblock_bit, BitVec.and_twoPow]
  cases flags.getLsbD 11 <;> rfl

theorem or_of_nonblock {flags : BitVec 32} (set : nonblock flags = true) :
    flags ||| O_NONBLOCK = flags := by
  rw [nonblock_eq_bit] at set
  apply BitVec.eq_of_getLsbD_eq
  intro i _
  rw [BitVec.getLsbD_or, nonblock_bit, BitVec.getLsbD_twoPow]
  by_cases here : 11 = i
  · subst here
    rw [set]
    rfl
  · simp [here]

theorem and_not_of_blocking {flags : BitVec 32} (clear : nonblock flags = false) :
    flags &&& ~~~O_NONBLOCK = flags := by
  rw [nonblock_eq_bit] at clear
  apply BitVec.eq_of_getLsbD_eq
  intro i inside
  rw [BitVec.getLsbD_and, BitVec.getLsbD_not, nonblock_bit, BitVec.getLsbD_twoPow]
  by_cases here : 11 = i
  · subst here
    rw [clear]
    rfl
  · simp [here, inside]

@[simp] theorem nonblock_or (flags : BitVec 32) : nonblock (flags ||| O_NONBLOCK) = true := by
  rw [nonblock_eq_bit, BitVec.getLsbD_or]
  exact Bool.or_true _

@[simp] theorem nonblock_and_not (flags : BitVec 32) :
    nonblock (flags &&& ~~~O_NONBLOCK) = false := by
  rw [nonblock_eq_bit, BitVec.getLsbD_and]
  exact Bool.and_false _

@[simp] theorem or_or_nonblock (flags : BitVec 32) :
    flags ||| O_NONBLOCK ||| O_NONBLOCK = flags ||| O_NONBLOCK := or_of_nonblock (nonblock_or flags)

@[simp] theorem or_and_not (flags : BitVec 32) :
    (flags ||| O_NONBLOCK) &&& ~~~O_NONBLOCK = flags &&& ~~~O_NONBLOCK := by
  rw [BitVec.and_or_distrib_right, BitVec.and_not_self]
  exact BitVec.or_zero

@[simp] theorem and_not_or (flags : BitVec 32) :
    (flags &&& ~~~O_NONBLOCK) ||| O_NONBLOCK = flags ||| O_NONBLOCK := by
  apply BitVec.eq_of_getLsbD_eq
  intro i inside
  simp only [BitVec.getLsbD_or, BitVec.getLsbD_and, BitVec.getLsbD_not, inside]
  cases flags.getLsbD i <;> cases O_NONBLOCK.getLsbD i <;> rfl

/-! ### The kernel -/

namespace Kernel

variable {kernel : Kernel} {n : Nat} {file : File}

@[simp] theorem file_natCast (kernel : Kernel) (n : Nat) : kernel.file n = kernel.files n := by
  have natural : ¬(n : Int) < 0 := by omega
  rw [Kernel.file, if_neg natural, Int.toNat_natCast]

@[simp] theorem update_files (kernel : Kernel) (n : Nat) (value : Option File) :
    (kernel.update n value).files = Function.update kernel.files n value := by
  rw [Kernel.update, Int.toNat_natCast]

theorem getfl_open (opened : kernel.files n = some file) : kernel.getfl n = file.flags := by
  rw [getfl, file_natCast, opened]

theorem update_closed (closed : kernel.files n = none) :
    Function.update kernel.files n none = kernel.files :=
  Function.update_eq_self_iff.mpr closed.symm

/-- Storing flags changes the file of the number and no other. -/
theorem setfl_files (kernel : Kernel) (n : Nat) (flags : BitVec 32) :
    (kernel.setfl n flags).1.files = Function.update kernel.files n
      ((kernel.files n).map fun file => { file with flags := flags }) := by
  cases opened : kernel.files n with
  | none => simp [setfl, opened, update_closed opened]
  | some file => simp [setfl, opened]

/-- The file after `FIONBIO`. -/
def switch (value : BitVec 32) (file : File) : File :=
  { file with
    flags := if value ≠ 0 then file.flags ||| O_NONBLOCK else file.flags &&& ~~~O_NONBLOCK }

theorem fionbio_files (kernel : Kernel) (n : Nat) (value : BitVec 32) :
    (kernel.fionbio n value).1.files =
      Function.update kernel.files n ((kernel.files n).map (switch value)) := by
  cases opened : kernel.files n with
  | none => simp [fionbio, opened, update_closed opened]
  | some file => simp [fionbio, opened, switch]

theorem close_files (kernel : Kernel) (n : Nat) :
    (kernel.close n).1.files = Function.update kernel.files n none := by
  cases opened : kernel.files n with
  | none => simp [close, opened, update_closed opened]
  | some file => simp [close, opened]

theorem close_negative {fd : Int} (negative : fd < 0) (kernel : Kernel) :
    (kernel.close fd).1 = kernel := by
  rw [close, Kernel.file, if_pos negative]

end Kernel

/-! ### The contexts -/

namespace FdCtx

/-- A context as `init` leaves it for a socket. -/
def fresh (fd : Int) : FdCtx where
  isInit := true
  isSocket := true
  sysNonblock := true
  userNonBlock := false
  isClosed := false
  fd := fd
  recvTimeout := -1
  sendTimeout := -1

theorem init_socket {kernel : Kernel} {n : Nat} {flags : BitVec 32}
    (opened : kernel.files n = some ⟨true, flags⟩) :
    ((blank n).init kernel).1 = fresh n ∧ ((blank n).init kernel).2.files =
      Function.update kernel.files n (some ⟨true, flags ||| O_NONBLOCK⟩) := by
  cases set : nonblock flags with
  | true =>
    rw [or_of_nonblock set, ← opened, Function.update_eq_self]
    simp [init, blank, fresh, opened, Kernel.getfl_open opened, set]
  | false =>
    simp [init, blank, fresh, opened, Kernel.getfl_open opened, set, Kernel.setfl_files]

end FdCtx

namespace Descriptors

/-- The context of a number. -/
def entry (s : Descriptors) (n : Nat) : Option FdCtx := s.datas[n]?.join

/-- From `s` to `s'` the file and the context of `n` become the given ones, and no others do. -/
structure Becomes (s s' : Descriptors) (n : Nat) (file : Option File) (ctx : Option FdCtx) :
    Prop where
  files : s'.kernel.files = Function.update s.kernel.files n file
  entry : s'.entry = Function.update s.entry n ctx
  large : s.datas.length ≤ s'.datas.length

variable {s s' : Descriptors} {n : Nat}

theorem Becomes.refl (s : Descriptors) (n : Nat) :
    Becomes s s n (s.kernel.files n) (s.entry n) :=
  ⟨(Function.update_eq_self ..).symm, (Function.update_eq_self ..).symm, Nat.le_refl _⟩

theorem get_negative {fd : Int} (negative : fd < 0) (auto_create : Bool) :
    get fd auto_create s = .error .outOfBounds s := by
  have inside : ¬(s.datas.length : Int) ≤ fd := by omega
  rw [get, if_neg inside, if_pos negative]

theorem get_false (s : Descriptors) (n : Nat) : get n false s = .ok (s.entry n) s := by
  have natural : ¬(n : Int) < 0 := by omega
  rw [get, entry]
  by_cases beyond : (s.datas.length : Int) ≤ n
  · rw [if_pos beyond, if_pos rfl, List.getElem?_eq_none (by omega)]
    rfl
  · rw [if_neg beyond, if_neg natural, Int.toNat_natCast]
    cases s.datas[n]?.join <;> rfl

theorem lt_of_entry {ctx : FdCtx} (found : s.entry n = some ctx) : n < s.datas.length := by
  by_contra beyond
  rw [entry, List.getElem?_eq_none (by omega)] at found
  cases found

theorem get_true {ctx : FdCtx} (found : s.entry n = some ctx) :
    get n true s = .ok (some ctx) s := by
  have natural : ¬(n : Int) < 0 := by omega
  have inside : ¬(s.datas.length : Int) ≤ n := by
    have := lt_of_entry found
    omega
  rw [entry] at found
  rw [get, if_neg inside, if_neg natural, Int.toNat_natCast, found]

theorem entry_set {datas : List (Option FdCtx)} (inside : n < datas.length)
    (kernel : Kernel) (value : Option FdCtx) :
    entry ⟨kernel, datas.set n value⟩ = Function.update (entry ⟨kernel, datas⟩) n value := by
  funext m
  by_cases same : m = n
  · subst same
    simp [entry, inside]
  · simp [entry, Function.update_of_ne same, List.getElem?_set_ne (Ne.symm same)]

theorem assign_inside (inside : n < s.datas.length) (value : Option FdCtx) :
    assign n value s = .ok () { s with datas := s.datas.set n value } := by
  have range : ¬((n : Int) < 0 ∨ (s.datas.length : Int) ≤ n) := by omega
  rw [assign, if_neg range, Int.toNat_natCast]

/-- Growing the table adds no context. -/
theorem entry_resize {datas : List (Option FdCtx)} {size : Nat} (grows : datas.length ≤ size)
    (kernel : Kernel) : entry ⟨kernel, resize datas size⟩ = entry ⟨kernel, datas⟩ := by
  funext m
  simp only [entry, resize, List.take_of_length_le grows]
  by_cases inside : m < datas.length
  · rw [List.getElem?_append_left inside]
  · rw [List.getElem?_append_right (by omega), List.getElem?_eq_none (by omega : datas.length ≤ m),
      List.getElem?_replicate]
    split <;> rfl

theorem create_spec (large : 64 ≤ s.datas.length) (n : Nat) :
    ∃ s', create n s = .ok ((FdCtx.blank n).init s.kernel).1 s' ∧
      s'.kernel = ((FdCtx.blank n).init s.kernel).2 ∧ s.datas.length ≤ s'.datas.length ∧
      s'.entry = Function.update s.entry n (some ((FdCtx.blank n).init s.kernel).1) := by
  generalize made : (FdCtx.blank n).init s.kernel = result
  obtain ⟨ctx, kernel⟩ := result
  by_cases beyond : (n : Int) ≥ s.datas.length
  · -- half as much again is more than the number itself
    have grows : s.datas.length ≤ n * 3 / 2 := by omega
    have inside : n < (resize s.datas (n * 3 / 2)).length := by
      simp only [resize, List.length_append, List.length_take, List.length_replicate]
      omega
    refine ⟨⟨kernel, (resize s.datas (n * 3 / 2)).set n (some ctx)⟩, ?_, rfl, ?_, ?_⟩
    · have grown : n < (Descriptors.mk kernel (resize s.datas (n * 3 / 2))).datas.length := inside
      simp only [create, bind_apply, get_apply, made, if_pos beyond, Int.toNat_natCast, set_apply,
        assign_inside grown, pure_apply]
    · rw [List.length_set]
      omega
    · rw [entry_set inside, entry_resize grows]
      rfl
  · have inside : n < s.datas.length := by omega
    refine ⟨⟨kernel, s.datas.set n (some ctx)⟩, ?_, rfl, ?_, ?_⟩
    · have same : n < (Descriptors.mk kernel s.datas).datas.length := inside
      simp only [create, bind_apply, get_apply, made, if_neg beyond, set_apply,
        assign_inside same, pure_apply]
    · exact Nat.le_of_eq List.length_set.symm
    · rw [entry_set inside]
      rfl

theorem get_create (large : 64 ≤ s.datas.length) (absent : s.entry n = none) :
    ∃ s', get n true s = .ok (some ((FdCtx.blank n).init s.kernel).1) s' ∧
      s'.kernel = ((FdCtx.blank n).init s.kernel).2 ∧ s.datas.length ≤ s'.datas.length ∧
      s'.entry = Function.update s.entry n (some ((FdCtx.blank n).init s.kernel).1) := by
  obtain ⟨s', made, rest⟩ := create_spec large n
  refine ⟨s', ?_, rest⟩
  have natural : ¬(n : Int) < 0 := by omega
  have created : (some <$> create n) s = .ok (some ((FdCtx.blank n).init s.kernel).1) s' := by
    rw [map_apply, made]
  rw [get]
  by_cases beyond : (s.datas.length : Int) ≤ n
  · rw [if_pos beyond, if_neg Bool.noConfusion, created]
  · rw [entry] at absent
    rw [if_neg beyond, if_neg natural, Int.toNat_natCast, absent]
    exact created

/-! ### The calls -/

/-- What becomes of a number that the kernel handed out for a socket: a context that is there
already is left as it is. -/
def registered (s : Descriptors) (n : Nat) (file : File) : Option File × Option FdCtx :=
  match s.entry n with
  | some ctx => (some file, some ctx)
  | none => (some { file with flags := file.flags ||| O_NONBLOCK }, some (FdCtx.fresh n))

theorem register_spec (large : 64 ≤ s.datas.length) {file : File}
    (socket : file.isSocket = true) :
    ∃ ctx s', get n true { s with kernel := s.kernel.update n (some file) } = .ok ctx s' ∧
      Becomes s s' n (s.registered n file).1 (s.registered n file).2 := by
  obtain ⟨isSocket, flags⟩ := file
  cases socket
  generalize opened : ({ s with kernel := s.kernel.update n (some ⟨true, flags⟩) } : Descriptors) =
    mid
  have files : mid.kernel.files = Function.update s.kernel.files n (some ⟨true, flags⟩) := by
    rw [← opened, Kernel.update_files]
  have entries : mid.entry = s.entry := by
    rw [← opened]
    rfl
  have length : mid.datas.length = s.datas.length := by rw [← opened]
  cases found : s.entry n with
  | some ctx =>
    have there : mid.entry n = some ctx := by rw [entries, found]
    refine ⟨some ctx, mid, get_true there, ?_⟩
    rw [registered, found]
    exact ⟨files, entries.trans (Function.update_eq_self_iff.mpr found.symm).symm,
      Nat.le_of_eq length.symm⟩
  | none =>
    -- `get` makes a context, and `init` makes the socket non-blocking
    have here : mid.kernel.files n = some ⟨true, flags⟩ := by rw [files, Function.update_self]
    obtain ⟨context, kernel⟩ := FdCtx.init_socket here
    obtain ⟨s', made, kernel', length', entry'⟩ :=
      get_create (length ▸ large) (by rw [entries, found] : mid.entry n = none)
    refine ⟨_, s', made, ?_⟩
    rw [registered, found]
    refine ⟨?_, ?_, length ▸ length'⟩
    · rw [kernel', kernel, files, Function.update_idem]
    · rw [entry', entries, context]

theorem assign_becomes {ctx : FdCtx} (found : s.entry n = some ctx) (value : Option FdCtx) :
    ∃ s', assign n value s = .ok () s' ∧ Becomes s s' n (s.kernel.files n) value := by
  have inside := lt_of_entry found
  refine ⟨_, assign_inside inside value, (Function.update_eq_self ..).symm, ?_, ?_⟩
  · exact entry_set inside s.kernel value
  · exact Nat.le_of_eq List.length_set.symm

section KernelCalls

variable {call : Kernel → Kernel × BitVec 32} {change : Option File → Option File}

/-- A system call that changes the file of one number. -/
theorem kernelCall_becomes
    (files : ∀ k : Kernel, (call k).1.files = Function.update k.files n (change (k.files n)))
    (s : Descriptors) :
    ∃ result s', kernelCall call s = .ok result s' ∧
      Becomes s s' n (change (s.kernel.files n)) (s.entry n) :=
  ⟨_, _, rfl, files s.kernel, (Function.update_eq_self ..).symm, Nat.le_refl _⟩

/-- The same after a change of the context of that number. -/
theorem assign_kernelCall
    (files : ∀ k : Kernel, (call k).1.files = Function.update k.files n (change (k.files n)))
    {ctx : FdCtx} (found : s.entry n = some ctx) (value : Option FdCtx) :
    ∃ result s', (do assign n value; kernelCall call) s = .ok result s' ∧
      Becomes s s' n (change (s.kernel.files n)) value := by
  obtain ⟨mid, assigned, first⟩ := assign_becomes found value
  obtain ⟨result, s', called, second⟩ := kernelCall_becomes files mid
  refine ⟨result, s', by rw [bind_apply, assigned]; exact called, ?_⟩
  have unchanged : mid.kernel.files = s.kernel.files := by
    rw [first.files, Function.update_eq_self]
  refine ⟨by rw [second.files, unchanged], ?_, Nat.le_trans first.large second.large⟩
  rw [second.entry, Function.update_eq_self, first.entry]

end KernelCalls

/-- The context after the user asked for a mode. -/
def remembered (ctx : Option FdCtx) (user_nonblock : Bool) : Option FdCtx :=
  ctx.map fun ctx =>
    if ctx.isClosed || !ctx.isSocket then ctx else { ctx with userNonBlock := user_nonblock }

/-- The flags that reach the kernel. -/
def adjusted (ctx : Option FdCtx) (arg : BitVec 32) : BitVec 32 :=
  match ctx with
  | none => arg
  | some ctx =>
    if ctx.isClosed || !ctx.isSocket then arg
    else if ctx.sysNonblock then arg ||| O_NONBLOCK else arg &&& ~~~O_NONBLOCK

/-- The context of an open socket remembers the mode, and the system call is made in any case. -/
private theorem remember_spec {call : Kernel → Kernel × BitVec 32}
    {change : Option File → Option File} {user_nonblock : Bool} {hooked : M (BitVec 32)}
    (files : ∀ k : Kernel, (call k).1.files = Function.update k.files n (change (k.files n)))
    (absent : s.entry n = none → hooked s = kernelCall call s)
    (passed : ∀ ctx, s.entry n = some ctx → (ctx.isClosed || !ctx.isSocket) = true →
      hooked s = kernelCall call s)
    (noted : ∀ ctx, s.entry n = some ctx → ¬(ctx.isClosed || !ctx.isSocket) = true →
      hooked s = (do
        assign n (some { ctx with userNonBlock := user_nonblock })
        kernelCall call) s) :
    ∃ result s', hooked s = .ok result s' ∧
      Becomes s s' n (change (s.kernel.files n)) (remembered (s.entry n) user_nonblock) := by
  obtain ⟨result, s', called, becomes⟩ := kernelCall_becomes files s
  cases found : s.entry n with
  | none =>
    rw [found] at becomes
    exact ⟨result, s', (absent found).trans called, becomes⟩
  | some ctx =>
    by_cases through : (ctx.isClosed || !ctx.isSocket) = true
    · refine ⟨result, s', (passed ctx found through).trans called, ?_⟩
      rw [remembered, Option.map_some, if_pos through, ← found]
      exact becomes
    · obtain ⟨result, s', called, becomes⟩ :=
        assign_kernelCall files found (some { ctx with userNonBlock := user_nonblock })
      refine ⟨result, s', (noted ctx found through).trans called, ?_⟩
      rw [remembered, Option.map_some, if_neg through]
      exact becomes

theorem fcntlSetfl_spec (s : Descriptors) (n : Nat) (arg : BitVec 32) :
    ∃ result s', fcntlSetfl n arg s = .ok result s' ∧
      Becomes s s' n ((s.kernel.files n).map fun file =>
        { file with flags := adjusted (s.entry n) arg })
        (remembered (s.entry n) (nonblock arg)) := by
  apply remember_spec (·.setfl_files n (adjusted (s.entry n) arg))
  · intro found
    simp only [fcntlSetfl, bind_apply, get_false, found, adjusted]
  · intro ctx found through
    simp only [fcntlSetfl, bind_apply, get_false, found, adjusted, if_pos through]
  · intro ctx found open_socket
    simp only [fcntlSetfl, bind_apply, get_false, found, adjusted, if_neg open_socket]

theorem ioctlFionbio_spec (s : Descriptors) (n : Nat) (value : BitVec 32) :
    ∃ result s', ioctlFionbio n value s = .ok result s' ∧
      Becomes s s' n ((s.kernel.files n).map (Kernel.switch value))
        (remembered (s.entry n) (value != 0)) := by
  apply remember_spec (·.fionbio_files n value)
  · intro found
    simp only [ioctlFionbio, bind_apply, get_false, found]
  · intro ctx found through
    simp only [ioctlFionbio, bind_apply, get_false, found, if_pos through]
  · intro ctx found open_socket
    simp only [ioctlFionbio, bind_apply, get_false, found, if_neg open_socket]

/-- What `F_GETFL` reports. -/
def reported (ctx : Option FdCtx) (flags : BitVec 32) : BitVec 32 :=
  match ctx with
  | none => flags
  | some ctx =>
    if ctx.isClosed || !ctx.isSocket then flags
    else if ctx.userNonBlock then flags ||| O_NONBLOCK else flags &&& ~~~O_NONBLOCK

theorem fcntlGetfl_spec (s : Descriptors) (n : Nat) :
    fcntlGetfl n s = .ok (reported (s.entry n) (s.kernel.getfl n)) s := by
  have asked : kernelCall (fun kernel => (kernel, kernel.getfl n)) s =
      .ok (s.kernel.getfl n) s := rfl
  cases found : s.entry n with
  | none => simp only [fcntlGetfl, bind_apply, asked, get_false, found, pure_apply, reported]
  | some ctx =>
    simp only [fcntlGetfl, bind_apply, asked, get_false, found, reported]
    split
    · rfl
    · split <;> rfl

theorem close_spec (hook_enable : Bool) (s : Descriptors) (n : Nat) :
    ∃ result s', close hook_enable n s = .ok result s' ∧
      Becomes s s' n none (if hook_enable then none else s.entry n) := by
  have files (k : Kernel) : (k.close n).1.files = Function.update k.files n none := k.close_files n
  obtain ⟨result, s', called, becomes⟩ :=
    @kernelCall_becomes n (Kernel.close · n) (fun _ => none) files s
  cases hook_enable with
  | false => exact ⟨result, s', called, becomes⟩
  | true =>
    cases found : s.entry n with
    | none =>
      rw [found] at becomes
      refine ⟨result, s', ?_, becomes⟩
      rw [close, if_neg Bool.noConfusion, bind_apply, get_false, found]
      exact called
    | some ctx =>
      obtain ⟨result, s', called, becomes⟩ :=
        @assign_kernelCall s n (Kernel.close · n) (fun _ => none) files ctx found none
      refine ⟨result, s', ?_, becomes⟩
      have inside : ¬(s.datas.length : Int) ≤ n := by
        have := lt_of_entry found
        omega
      rw [bind_apply] at called
      rw [close, if_neg Bool.noConfusion, bind_apply, get_false, found]
      simp only [bind_apply, del, if_neg inside]
      exact called

theorem setsockoptTimeout_spec (hook_enable : Bool) (s : Descriptors) (n : Nat)
    (type : TimeoutType) (v : UInt64) :
    ∃ s', setsockoptTimeout hook_enable n type v s = .ok () s' ∧
      Becomes s s' n (s.kernel.files n)
        (if hook_enable then (s.entry n).map (·.setTimeout type v) else s.entry n) := by
  cases hook_enable with
  | false => exact ⟨s, rfl, .refl s n⟩
  | true =>
    cases found : s.entry n with
    | none =>
      have kept := Becomes.refl s n
      rw [found] at kept
      refine ⟨s, ?_, kept⟩
      rw [setsockoptTimeout, if_neg Bool.noConfusion, bind_apply, get_false, found]
      rfl
    | some ctx =>
      obtain ⟨s', assigned, becomes⟩ := assign_becomes found (some (ctx.setTimeout type v))
      refine ⟨s', ?_, becomes⟩
      rw [setsockoptTimeout, if_neg Bool.noConfusion, bind_apply, get_false, found]
      exact assigned

/-! ### Steps -/

inductive Call where
  | socket (hook_enable : Bool) (made : Option (Nat × File))
  | accept (hook_enable : Bool) (sockfd : Int) (made : Option (Nat × File))
  | close (hook_enable : Bool) (fd : Int)
  | setfl (fd : Int) (arg : BitVec 32)
  | getfl (fd : Int)
  | fionbio (fd : Int) (value : BitVec 32)
  | setTimeout (hook_enable : Bool) (sockfd : Int) (type : TimeoutType) (v : UInt64)
  deriving DecidableEq, Repr

/-- The state a computation leaves. -/
def after {α : Type} : EStateM.Result IoFault Descriptors α → Except IoFault Descriptors
  | .ok _ s => .ok s
  | .error fault _ => .error fault

def step (s : Descriptors) : Call → Except IoFault Descriptors
  | .socket hook_enable made => after (socket hook_enable made s)
  | .accept hook_enable sockfd made => after (accept hook_enable sockfd made s)
  | .close hook_enable fd => after (close hook_enable fd s)
  | .setfl fd arg => after (fcntlSetfl fd arg s)
  | .getfl fd => after (fcntlGetfl fd s)
  | .fionbio fd value => after (ioctlFionbio fd value s)
  | .setTimeout hook_enable sockfd type v => after (setsockoptTimeout hook_enable sockfd type v s)

/-- The kernel answers with a number that is not in use, and with a socket. -/
def Offered (s : Descriptors) : Call → Prop
  | .socket _ (some (n, file)) | .accept _ _ (some (n, file)) =>
    s.kernel.files n = none ∧ file.isSocket = true
  | _ => True

/-- The number a call is about. -/
def Call.number : Call → Nat
  | .socket _ made | .accept _ _ made => (made.map Prod.fst).getD 0
  | .close _ fd | .setfl fd _ | .getfl fd | .fionbio fd _ | .setTimeout _ fd _ _ => fd.toNat

/-- The call to `accept_f` is not refused for a context that is marked closed. -/
def listens (s : Descriptors) (hook_enable : Bool) (sockfd : Int) : Bool :=
  !hook_enable || (s.entry sockfd.toNat).all fun ctx => !ctx.isClosed

/-- The file and the context of that number after the call. -/
def effect (s : Descriptors) (call : Call) : Option File × Option FdCtx :=
  let unchanged := (s.kernel.files call.number, s.entry call.number)
  match call with
  | .socket hook_enable (some (n, file)) =>
    if hook_enable then s.registered n file else (some file, s.entry n)
  | .accept hook_enable sockfd (some (n, file)) =>
    if s.listens hook_enable sockfd then s.registered n file else unchanged
  | .socket _ none | .accept _ _ none | .getfl _ => unchanged
  | .close hook_enable fd =>
    if fd < 0 then unchanged else (none, if hook_enable then none else s.entry fd.toNat)
  | .setfl fd arg =>
    ((s.kernel.files fd.toNat).map fun file => { file with
      flags := adjusted (s.entry fd.toNat) arg }, remembered (s.entry fd.toNat) (nonblock arg))
  | .fionbio fd value =>
    ((s.kernel.files fd.toNat).map (Kernel.switch value),
      remembered (s.entry fd.toNat) (value != 0))
  | .setTimeout hook_enable fd type v =>
    if fd < 0 then unchanged
    else (s.kernel.files fd.toNat,
      if hook_enable then (s.entry fd.toNat).map (·.setTimeout type v) else s.entry fd.toNat)

theorem negative_or_natCast (fd : Int) : fd < 0 ∨ ∃ n : Nat, fd = n := by
  cases fd with
  | ofNat n => exact .inr ⟨n, rfl⟩
  | negSucc n => exact .inl (Int.negSucc_lt_zero n)

section Made

variable {file : File} (large : 64 ≤ s.datas.length) (socket : file.isSocket = true)
include large socket

theorem socket_hooked (n : Nat) :
    ∃ s', Descriptors.socket true (some (n, file)) s = .ok (n : Int) s' ∧
      Becomes s s' n (s.registered n file).1 (s.registered n file).2 := by
  obtain ⟨ctx, s', made, becomes⟩ := register_spec (n := n) large socket
  have natural : ¬(n : Int) = -1 := by omega
  refine ⟨s', ?_, becomes⟩
  rw [Descriptors.socket, if_neg Bool.noConfusion, bind_apply, answer]
  simp only [if_neg natural, bind_apply, made, pure_apply]

theorem accept_made (hook_enable : Bool) (sockfd : Int) (n : Nat)
    (answered : acceptIo hook_enable sockfd (some (n, file)) s = answer (some (n, file)) s) :
    ∃ s', accept hook_enable sockfd (some (n, file)) s = .ok (n : Int) s' ∧
      Becomes s s' n (s.registered n file).1 (s.registered n file).2 := by
  obtain ⟨ctx, s', made, becomes⟩ := register_spec (n := n) large socket
  have natural : (n : Int) ≥ 0 := by omega
  refine ⟨s', ?_, becomes⟩
  rw [accept, bind_apply, answered, answer]
  simp only [if_pos natural, bind_apply, made, pure_apply]

end Made

/-- What `do_io` makes of the kernel's answer. -/
theorem acceptIo_cases (s : Descriptors) (hook_enable : Bool) (sockfd : Int)
    (made : Option (Nat × File)) :
    (hook_enable = true ∧ sockfd < 0 ∧
      acceptIo hook_enable sockfd made s = .error .outOfBounds s) ∨
    (s.listens hook_enable sockfd = true ∧
      acceptIo hook_enable sockfd made s = answer made s) ∨
    (s.listens hook_enable sockfd = false ∧ acceptIo hook_enable sockfd made s = .ok (-1) s) := by
  cases hook_enable with
  | false => exact .inr (.inl ⟨rfl, rfl⟩)
  | true =>
    rcases negative_or_natCast sockfd with negative | ⟨n, rfl⟩
    · refine .inl ⟨rfl, negative, ?_⟩
      rw [acceptIo, if_neg Bool.noConfusion, bind_apply, get_negative negative]
    · rw [acceptIo, if_neg Bool.noConfusion, bind_apply, get_false, listens, Int.toNat_natCast]
      cases s.entry n with
      | none => exact .inr (.inl ⟨rfl, rfl⟩)
      | some ctx =>
        cases closed : ctx.isClosed with
        | false => exact .inr (.inl ⟨by simp [closed], by simp [closed]⟩)
        | true => exact .inr (.inr ⟨by simp [closed], by simp [closed]⟩)

/-- The outcome of a computation that is known. -/
theorem eq_of_after {α : Type} {x : M α} {result : α} {s'' : Descriptors}
    (ran : after (x s) = .ok s') (known : x s = .ok result s'') : s'' = s' := by
  rw [known] at ran
  exact Except.ok.inj ran

theorem not_after {α : Type} {x : M α} (ran : after (x s) = .ok s')
    (known : x s = .error .outOfBounds s) : False := by
  rw [known] at ran
  cases ran

theorem socket_becomes (large : 64 ≤ s.datas.length) {hook_enable : Bool}
    {made : Option (Nat × File)} (offered : s.Offered (.socket hook_enable made))
    (ran : step s (.socket hook_enable made) = .ok s') :
    Becomes s s' (Call.socket hook_enable made).number (s.effect (.socket hook_enable made)).1
      (s.effect (.socket hook_enable made)).2 := by
  cases made with
  | none => cases hook_enable <;> (cases ran; exact .refl s _)
  | some new =>
    obtain ⟨n, file⟩ := new
    cases hook_enable with
    | false =>
      cases ran
      exact ⟨Kernel.update_files .., (Function.update_eq_self ..).symm, Nat.le_refl _⟩
    | true =>
      obtain ⟨s'', made, becomes⟩ := socket_hooked large offered.2 n
      cases eq_of_after ran made
      exact becomes

theorem accept_becomes (large : 64 ≤ s.datas.length) {hook_enable : Bool} {sockfd : Int}
    {made : Option (Nat × File)} (offered : s.Offered (.accept hook_enable sockfd made))
    (ran : step s (.accept hook_enable sockfd made) = .ok s') :
    Becomes s s' (Call.accept hook_enable sockfd made).number
      (s.effect (.accept hook_enable sockfd made)).1
      (s.effect (.accept hook_enable sockfd made)).2 := by
  -- a negative number, an answer of the kernel, or a context that is marked closed
  rcases acceptIo_cases s hook_enable sockfd made with ⟨-, -, failed⟩ | ⟨listens, answered⟩ |
    ⟨deaf, refused⟩
  · refine (not_after ran ?_).elim
    rw [accept, bind_apply, failed]
  · cases made with
    | none =>
      have failed : accept hook_enable sockfd none s = .ok (-1) s := by
        rw [accept, bind_apply, answered]
        rfl
      cases eq_of_after ran failed
      exact .refl s _
    | some new =>
      obtain ⟨s'', made, becomes⟩ :=
        accept_made large offered.2 hook_enable sockfd new.1 answered
      cases eq_of_after ran made
      rw [effect, if_pos listens]
      exact becomes
  · have failed : accept hook_enable sockfd made s = .ok (-1) s := by
      rw [accept, bind_apply, refused]
      rfl
    cases eq_of_after ran failed
    cases made with
    | none => exact .refl s _
    | some new =>
      rw [effect, if_neg (by rw [deaf]; exact Bool.noConfusion)]
      exact .refl s _

theorem close_becomes {hook_enable : Bool} {fd : Int}
    (ran : step s (.close hook_enable fd) = .ok s') :
    Becomes s s' (Call.close hook_enable fd).number (s.effect (.close hook_enable fd)).1
      (s.effect (.close hook_enable fd)).2 := by
  rcases negative_or_natCast fd with negative | ⟨n, rfl⟩
  · cases hook_enable with
    | true =>
      refine (not_after ran ?_).elim
      rw [close, if_neg Bool.noConfusion, bind_apply, get_negative negative]
    | false =>
      -- `close_f` fails and nothing changes
      have failed : close false fd s = .ok (s.kernel.close fd).2 s := by
        change kernelCall (Kernel.close · fd) s = _
        rw [kernelCall, Kernel.close_negative negative]
      have stayed : after (close false fd s) = .ok s' := ran
      rw [failed] at stayed
      cases stayed
      rw [effect, if_pos negative]
      exact .refl s _
  · obtain ⟨result, s'', closed, becomes⟩ := close_spec hook_enable s n
    cases eq_of_after ran closed
    exact becomes

/-- Every call that returns has its effect on one number and leaves the others alone. -/
theorem step_becomes (large : 64 ≤ s.datas.length) {call : Call} (offered : s.Offered call)
    (ran : step s call = .ok s') :
    Becomes s s' call.number (s.effect call).1 (s.effect call).2 := by
  cases call with
  | socket hook_enable made => exact socket_becomes large offered ran
  | accept hook_enable sockfd made => exact accept_becomes large offered ran
  | close hook_enable fd => exact close_becomes ran
  | setfl fd arg =>
    rcases negative_or_natCast fd with negative | ⟨n, rfl⟩
    · refine (not_after ran ?_).elim
      rw [fcntlSetfl, bind_apply, get_negative negative]
    · obtain ⟨result, s'', stored, becomes⟩ := fcntlSetfl_spec s n arg
      cases eq_of_after ran stored
      exact becomes
  | getfl fd =>
    rcases negative_or_natCast fd with negative | ⟨n, rfl⟩
    · refine (not_after ran ?_).elim
      rw [fcntlGetfl, bind_apply, kernelCall]
      simp only [bind_apply, get_negative negative]
    · cases eq_of_after ran (fcntlGetfl_spec s n)
      exact .refl s n
  | fionbio fd value =>
    rcases negative_or_natCast fd with negative | ⟨n, rfl⟩
    · refine (not_after ran ?_).elim
      rw [ioctlFionbio, bind_apply, get_negative negative]
    · obtain ⟨result, s'', switched, becomes⟩ := ioctlFionbio_spec s n value
      cases eq_of_after ran switched
      exact becomes
  | setTimeout hook_enable fd type v =>
    rcases negative_or_natCast fd with negative | ⟨n, rfl⟩
    · cases hook_enable with
      | true =>
        refine (not_after ran ?_).elim
        rw [setsockoptTimeout, if_neg Bool.noConfusion, bind_apply, get_negative negative]
      | false =>
        cases ran
        rw [effect, if_pos negative]
        exact .refl s _
    · obtain ⟨s'', set, becomes⟩ := setsockoptTimeout_spec hook_enable s n type v
      cases eq_of_after ran set
      exact becomes

end Descriptors

end Dwframe
