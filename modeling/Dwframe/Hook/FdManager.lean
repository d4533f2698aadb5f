import Mathlib.Logic.Function.Basic
import Dwframe.IoManager.Model
import Dwframe.Lib.Monad

/-!
# Descriptors and their contexts

The kernel keeps an open file for each descriptor number and hands out any number that is not in
use. `FdMger` keeps a context for the numbers that came from a hooked `socket` or `accept`; it
says whether the user asked for non-blocking mode, while the descriptor itself is to be
non-blocking always. The two tables are updated by different calls.

`fcntl` and `ioctl` do not look at `t_hook_enable`; the other calls take it as an argument. What
`cancelALL` does to the waiters of a closed descriptor belongs to `IOManager` and changes neither
table.
-/
namespace Dwframe

def O_NONBLOCK : BitVec 32 := 0x800

/-- `flags & O_NONBLOCK` as a condition. -/
def nonblock (flags : BitVec 32) : Bool := flags &&& O_NONBLOCK != 0

/-- An open file: what `fstat` says of its type, and its status flags. -/
structure File where
  isSocket : Bool
  flags : BitVec 32
  deriving DecidableEq, Repr

/-- The descriptors of the process. -/
structure Kernel where
  files : Nat → Option File

namespace Kernel

def file (kernel : Kernel) (fd : Int) : Option File :=
  if fd < 0 then none else kernel.files fd.toNat

def update (kernel : Kernel) (fd : Int) (file : Option File) : Kernel :=
  ⟨Function.update kernel.files fd.toNat file⟩

/-- `fcntl_f(fd, F_GETFL)`. -/
def getfl (kernel : Kernel) (fd : Int) : BitVec 32 :=
  match kernel.file fd with
  | none => -1
  | some file => file.flags

/-- `fcntl_f(fd, F_SETFL, flags)` stores the flags. -/
def setfl (kernel : Kernel) (fd : Int) (flags : BitVec 32) : Kernel × BitVec 32 :=
  match kernel.file fd with
  | none => (kernel, -1)
  | some file => (kernel.update fd (some { file with flags := flags }), 0)

/-- `ioctl_f(fd, FIONBIO, &value)` sets or clears `O_NONBLOCK`. -/
def fionbio (kernel : Kernel) (fd : Int) (value : BitVec 32) : Kernel × BitVec 32 :=
  match kernel.file fd with
  | none => (kernel, -1)
  | some file =>
    let flags := if value ≠ 0 then file.flags ||| O_NONBLOCK else file.flags &&& ~~~O_NONBLOCK
    (kernel.update fd (some { file with flags := flags }), 0)

/-- `close_f(fd)`. -/
def close (kernel : Kernel) (fd : Int) : Kernel × BitVec 32 :=
  match kernel.file fd with
  | none => (kernel, -1)
  | some _ => (kernel.update fd none, 0)

end Kernel

inductive TimeoutType where
  | rcvtimeo
  | sndtimeo
  deriving DecidableEq, Repr

structure FdCtx where
  isInit : Bool
  isSocket : Bool
  sysNonblock : Bool
  userNonBlock : Bool
  isClosed : Bool
  fd : Int
  recvTimeout : UInt64
  sendTimeout : UInt64
  deriving DecidableEq, Repr

namespace FdCtx

/-- The members as the constructor initializes them, before it calls `init`. -/
def blank (fd : Int) : FdCtx where
  isInit := false
  isSocket := false
  sysNonblock := false
  userNonBlock := false
  isClosed := false
  fd := fd
  recvTimeout := -1
  sendTimeout := -1

/-- `init` asks for the type of the file and makes a socket non-blocking. -/
def init (ctx : FdCtx) (kernel : Kernel) : FdCtx × Kernel :=
  if ctx.isInit then (ctx, kernel)
  else
    let ctx := { ctx with recvTimeout := -1, sendTimeout := -1 }
    let ctx := match kernel.file ctx.fd with
      | none => { ctx with isInit := false, isSocket := false }
      | some file => { ctx with isInit := true, isSocket := file.isSocket }
    let (ctx, kernel) :=
      if ctx.isSocket then
        let flags := kernel.getfl ctx.fd
        let kernel :=
          if !nonblock flags then (kernel.setfl ctx.fd (flags ||| O_NONBLOCK)).1 else kernel
        ({ ctx with sysNonblock := true }, kernel)
      else ({ ctx with sysNonblock := false }, kernel)
    ({ ctx with userNonBlock := false, isClosed := false }, kernel)

def setTimeout (ctx : FdCtx) (type : TimeoutType) (v : UInt64) : FdCtx :=
  match type with
  | .rcvtimeo => { ctx with recvTimeout := v }
  | .sndtimeo => { ctx with sendTimeout := v }

end FdCtx

/-- The process: the kernel's table and `m_datas` of `FdMger`. -/
structure Descriptors where
  kernel : Kernel
  datas : List (Option FdCtx)

namespace Descriptors

abbrev M := EStateM IoFault Descriptors

/-- `m_datas.resize(64)`, whatever descriptors are open already. -/
def start (kernel : Kernel) : Descriptors := ⟨kernel, List.replicate 64 none⟩

/-- `std::vector::resize`. -/
def resize (datas : List (Option FdCtx)) (size : Nat) : List (Option FdCtx) :=
  datas.take size ++ List.replicate (size - datas.length) none

/-- `m_datas[fd] = ctx`. -/
def assign (fd : Int) (ctx : Option FdCtx) : M Unit := fun s =>
  if fd < 0 ∨ (s.datas.length : Int) ≤ fd then .error .outOfBounds s
  else .ok () { s with datas := s.datas.set fd.toNat ctx }

/-- The part of `get` that makes a context. `fd * 1.5` is rounded down. -/
def create (fd : Int) : M FdCtx := do
  let s ← get
  -- the constructor calls `init`, which may change the file
  let (ctx, kernel) := (FdCtx.blank fd).init s.kernel
  let datas := if fd ≥ s.datas.length then resize s.datas (fd.toNat * 3 / 2) else s.datas
  set { kernel := kernel, datas := datas : Descriptors }
  assign fd (some ctx)
  return ctx

/-- `FdManager::get`. -/
def get (fd : Int) (auto_create : Bool) : M (Option FdCtx) := fun s =>
  if (s.datas.length : Int) ≤ fd then
    if auto_create = false then .ok none s else (some <$> create fd) s
  -- the comparison is signed, so a negative number indexes the vector
  else if fd < 0 then .error .outOfBounds s
  else
    match s.datas[fd.toNat]?.join with
    | some ctx => .ok (some ctx) s
    | none => if !auto_create then .ok none s else (some <$> create fd) s

/-- `FdManager::del`. -/
def del (fd : Int) : M Unit := fun s =>
  if (s.datas.length : Int) ≤ fd then .ok () s else assign fd none s

/-! ### The hooked calls -/

/-- `socket_f` and `accept_f`: they fail, or open `made` under a number of the kernel's choice. -/
def answer (made : Option (Nat × File)) : M Int := fun s =>
  match made with
  | none => .ok (-1) s
  | some (fd, file) => .ok fd { s with kernel := s.kernel.update fd (some file) }

def socket (hook_enable : Bool) (made : Option (Nat × File)) : M Int := do
  if !hook_enable then answer made
  else
    let fd ← answer made
    if fd = -1 then return fd
    else
      let _ ← get fd true
      return fd

/-- `do_io` around `accept_f`. However often it waits and retries, it ends with an answer of the
kernel or with -1. -/
def acceptIo (hook_enable : Bool) (sockfd : Int) (made : Option (Nat × File)) : M Int := do
  if !hook_enable then answer made
  else
    match ← get sockfd false with
    | none => answer made
    | some ctx => if ctx.isClosed then return -1 else answer made

/-- The new descriptor gets a context whether or not the thread is hooked. -/
def accept (hook_enable : Bool) (sockfd : Int) (made : Option (Nat × File)) : M Int := do
  let fd ← acceptIo hook_enable sockfd made
  if fd ≥ 0 then
    let _ ← get fd true
    return fd
  else return fd

def kernelCall (call : Kernel → Kernel × BitVec 32) : M (BitVec 32) := fun s =>
  .ok (call s.kernel).2 { s with kernel := (call s.kernel).1 }

def close (hook_enable : Bool) (fd : Int) : M (BitVec 32) := do
  if !hook_enable then kernelCall (Kernel.close · fd)
  else
    match ← get fd false with
    | none => kernelCall (Kernel.close · fd)
    | some _ =>
      -- what the user asked for goes with the context
      del fd
      kernelCall (Kernel.close · fd)

/-- `fcntl(fd, F_SETFL, arg)`. -/
def fcntlSetfl (fd : Int) (arg : BitVec 32) : M (BitVec 32) := do
  match ← get fd false with
  | none => kernelCall (Kernel.setfl · fd arg)
  | some ctx =>
    if ctx.isClosed || !ctx.isSocket then kernelCall (Kernel.setfl · fd arg)
    else
      assign fd (some { ctx with userNonBlock := nonblock arg })
      -- the kernel is told what the hooks need, not what the user asked for
      let arg := if ctx.sysNonblock then arg ||| O_NONBLOCK else arg &&& ~~~O_NONBLOCK
      kernelCall (Kernel.setfl · fd arg)

/-- `fcntl(fd, F_GETFL)`. -/
def fcntlGetfl (fd : Int) : M (BitVec 32) := do
  let arg ← kernelCall fun kernel => (kernel, kernel.getfl fd)
  match ← get fd false with
  | none => return arg
  | some ctx =>
    if ctx.isClosed || !ctx.isSocket then return arg
    else if ctx.userNonBlock then return arg ||| O_NONBLOCK
    else return arg &&& ~~~O_NONBLOCK

/-- `ioctl(fd, FIONBIO, &value)`. The argument goes to the kernel as it is. -/
def ioctlFionbio (fd : Int) (value : BitVec 32) : M (BitVec 32) := do
  let user_nonblock := value != 0
  match ← get fd false with
  | none => kernelCall (Kernel.fionbio · fd value)
  | some ctx =>
    if ctx.isClosed || !ctx.isSocket then kernelCall (Kernel.fionbio · fd value)
    else
      assign fd (some { ctx with userNonBlock := user_nonblock })
      -- `sysNonblock` is not consulted here
      kernelCall (Kernel.fionbio · fd value)

/-- `setsockopt(sockfd, SOL_SOCKET, type, v)`; the timeout `v` is in milliseconds already. -/
def setsockoptTimeout (hook_enable : Bool) (sockfd : Int) (type : TimeoutType) (v : UInt64) :
    M Unit := do
  if !hook_enable then return ()
  else
    match ← get sockfd false with
    | none => return ()
    | some ctx => assign sockfd (some (ctx.setTimeout type v))

end Descriptors

end Dwframe
