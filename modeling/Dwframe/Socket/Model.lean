import Dwframe.Hook.FdManager

/-!
# `Socket`

The kernel knows two names of an open descriptor: `getsockname` reports its own, `getpeername`
that of its peer, if it has one. A `Socket` keeps either address from the first time it is asked
for; `close` forgets the descriptor only.

What a system call comes to is an argument of the method: none where it fails. A method is
undefined on what no kernel answers, such as a new descriptor that is in use. An `Address` is the
name it holds; only its family is looked at before it is passed on. `connect` with a timeout and
without one differ in the system call alone. Options are left out.
-/
namespace Dwframe

/-- The names of an open descriptor. -/
structure Endpoint (α : Type) where
  localName : α
  peerName : Option α
  deriving DecidableEq

/-- The open descriptors. -/
abbrev Files (α : Type) := Int → Option (Endpoint α)

namespace Files

variable {α : Type}

/-- `::socket`. -/
def socket (files : Files α) : Option (Int × α) → Option (Int × Files α)
  | none => some (-1, files)
  | some (fd, name) =>
    if 0 ≤ fd ∧ files fd = none then some (fd, Function.update files fd (some ⟨name, none⟩))
    else none

/-- `::bind`; the kernel completes the name. -/
def bind (files : Files α) (fd : Int) : Option α → Option (Bool × Files α)
  | none => some (false, files)
  | some name =>
    match files fd with
    | none => none
    | some e => some (true, Function.update files fd (some { e with localName := name }))

/-- `::connect`; the descriptor gets both names. -/
def connect (files : Files α) (fd : Int) : Option (Endpoint α) → Option (Bool × Files α)
  | none => some (false, files)
  | some e =>
    match files fd with
    | none => none
    | some _ => some (true, Function.update files fd (some e))

/-- `::accept`. -/
def accept (files : Files α) (listening : Int) :
    Option (Int × Endpoint α) → Option (Int × Files α)
  | none => some (-1, files)
  | some (fd, e) =>
    if (files listening).isSome ∧ 0 ≤ fd ∧ files fd = none then
      some (fd, Function.update files fd (some e))
    else none

/-- `getsockname`; it may fail on an open descriptor as well. -/
def getsockname (files : Files α) (fd : Int) (answers : Bool) : Option α :=
  if answers then (files fd).map Endpoint.localName else none

def getpeername (files : Files α) (fd : Int) (answers : Bool) : Option α :=
  if answers then (files fd).bind Endpoint.peerName else none

end Files

/-- What the getters return. -/
inductive Reported (α : Type) where
  /-- An address of the class that belongs to the family. -/
  | address (family : Int) (name : α)
  /-- `UnknowAddress(m_family)`. -/
  | unknown (family : Int)
  deriving DecidableEq

structure Socket (α : Type) where
  sock : Int
  family : Int
  type : Int
  protocol : Int
  isConnected : Bool
  localAddress : Option α
  remoteAddress : Option α
  deriving DecidableEq

namespace Socket

variable {α : Type}

/-- `SOCK_STREAM`. -/
def TCP : Int := 1

/-- `SOCK_DGRAM`. -/
def UDP : Int := 2

def new (family type protocol : Int) : Socket α :=
  ⟨-1, family, type, protocol, false, none, none⟩

def isVaild (s : Socket α) : Bool := s.sock != -1

def getRemoteAddress (files : Files α) (answers : Bool) (s : Socket α) : Reported α × Socket α :=
  match s.remoteAddress with
  | some name => (.address s.family name, s)
  | none =>
    match files.getpeername s.sock answers with
    | none => (.unknown s.family, s)
    | some name => (.address s.family name, { s with remoteAddress := some name })

def getLocalAddress (files : Files α) (answers : Bool) (s : Socket α) : Reported α × Socket α :=
  match s.localAddress with
  | some name => (.address s.family name, s)
  | none =>
    match files.getsockname s.sock answers with
    | none => (.unknown s.family, s)
    | some name => (.address s.family name, { s with localAddress := some name })

def newSock (files : Files α) (made : Option (Int × α)) (s : Socket α) :
    Option (Files α × Socket α) := do
  let (sock, files) ← files.socket made
  return (files, { s with sock := sock })

def CreateTCP (family : Int) : Socket α := new family TCP 0

/-- `CreateUDP`, `CreateUDPSocket` and `CreateUDPSocket6`. -/
def CreateUDP (files : Files α) (family : Int) (made : Option (Int × α)) :
    Option (Files α × Socket α) := do
  let (files, s) ← (new family UDP 0).newSock files made
  return (files, { s with isConnected := true })

def bind (files : Files α) (family : Int) (made : Option (Int × α)) (bound : Option α)
    (answers : Bool) (s : Socket α) : Option (Bool × Files α × Socket α) := do
  let (files, s) ← (if s.isVaild then some (files, s) else s.newSock files made)
  if !s.isVaild then return (false, files, s)
  if family ≠ s.family then return (false, files, s)
  let (done, files) ← files.bind s.sock bound
  if !done then return (false, files, s)
  return (true, files, (s.getLocalAddress files answers).2)

/-- `listen`; `heard` is what `::listen` comes to. -/
def listen (s : Socket α) (heard : Bool) : Bool := s.isVaild && heard

def close (files : Files α) (s : Socket α) : Bool × Files α × Socket α :=
  if !s.isConnected && s.sock == -1 then (true, files, s)
  else
    let s := { s with isConnected := false }
    if s.sock ≠ -1 then (false, Function.update files s.sock none, { s with sock := -1 })
    else (false, files, s)

def connect (files : Files α) (family : Int) (made : Option (Int × α))
    (connected : Option (Endpoint α)) (answersRemote answersLocal : Bool) (s : Socket α) :
    Option (Bool × Files α × Socket α) := do
  let (files, s) ← (if s.isVaild then some (files, s) else s.newSock files made)
  if !s.isVaild then return (false, files, s)
  if family ≠ s.family then return (false, files, s)
  let (done, files) ← files.connect s.sock connected
  if !done then
    let (_, files, s) := s.close files
    return (false, files, s)
  let s := { s with isConnected := true }
  let s := (s.getRemoteAddress files answersRemote).2
  return (true, files, (s.getLocalAddress files answersLocal).2)

/-- The context allows the descriptor: `ctx && ctx->isSocket() && !ctx->isClose()`. -/
def usable (ctx : Option FdCtx) : Bool := ctx.any fun ctx => ctx.isSocket && !ctx.isClosed

/-- `init`; `ctx` is what `FdMger` has for the descriptor. -/
def init (files : Files α) (sock : Int) (ctx : Option FdCtx) (answersLocal answersRemote : Bool)
    (s : Socket α) : Bool × Socket α :=
  if usable ctx then
    let s := { s with sock := sock, isConnected := true }
    let s := (s.getLocalAddress files answersLocal).2
    (true, (s.getRemoteAddress files answersRemote).2)
  else (false, s)

/-- `accept`: the new object, null where it fails. -/
def accept (files : Files α) (made : Option (Int × Endpoint α)) (ctx : Option FdCtx)
    (answersLocal answersRemote : Bool) (s : Socket α) : Option (Option (Socket α) × Files α) := do
  let (newsock, files) ← files.accept s.sock made
  if newsock = -1 then return (none, files)
  let (done, sock) :=
    (new s.family s.type s.protocol).init files newsock ctx answersLocal answersRemote
  return (if done then some sock else none, files)

end Socket

/-! ### Several sockets -/

/-- The `Socket` objects, by address, and the descriptors they share. -/
structure Sockets (α : Type) where
  objects : Nat → Option (Socket α)
  files : Files α

inductive SocketCall (α : Type) where
  /-- `CreateTCP` and the like, which make no descriptor. -/
  | create (id : Nat) (family type : Int)
  | CreateUDP (id : Nat) (family : Int) (made : Option (Int × α))
  | bind (id : Nat) (family : Int) (made : Option (Int × α)) (bound : Option α) (answers : Bool)
  | connect (id : Nat) (family : Int) (made : Option (Int × α)) (connected : Option (Endpoint α))
      (answersRemote answersLocal : Bool)
  | close (id : Nat)
  | accept (id new : Nat) (made : Option (Int × Endpoint α)) (ctx : Option FdCtx)
      (answersLocal answersRemote : Bool)
  | init (id : Nat) (sock : Int) (ctx : Option FdCtx) (answersLocal answersRemote : Bool)
  | getRemoteAddress (id : Nat) (answers : Bool)
  | getLocalAddress (id : Nat) (answers : Bool)

namespace Sockets

variable {α : Type}

/-- The objects and descriptors after a call on `id`. -/
def after (w : Sockets α) (id : Nat) (files : Files α) (s : Socket α) : Sockets α :=
  ⟨Function.update w.objects id (some s), files⟩

/-- No object, and no descriptor. -/
def start : Sockets α := ⟨fun _ => none, fun _ => none⟩

def step (w : Sockets α) : SocketCall α → Option (Sockets α)
  | .create id family type =>
    if w.objects id = none then some (w.after id w.files (.new family type 0)) else none
  | .CreateUDP id family made => do
    if w.objects id ≠ none then none
    let (files, s) ← Socket.CreateUDP w.files family made
    return w.after id files s
  | .bind id family made bound answers => do
    let s ← w.objects id
    let (_, files, s) ← s.bind w.files family made bound answers
    return w.after id files s
  | .connect id family made connected answersRemote answersLocal => do
    let s ← w.objects id
    let (_, files, s) ← s.connect w.files family made connected answersRemote answersLocal
    return w.after id files s
  | .close id => do
    let s ← w.objects id
    let (_, files, s) := s.close w.files
    return w.after id files s
  | .accept id new made ctx answersLocal answersRemote => do
    let s ← w.objects id
    if w.objects new ≠ none then none
    let (made, files) ← s.accept w.files made ctx answersLocal answersRemote
    return ⟨Function.update w.objects new made, files⟩
  | .init id sock ctx answersLocal answersRemote => do
    let s ← w.objects id
    return w.after id w.files (s.init w.files sock ctx answersLocal answersRemote).2
  | .getRemoteAddress id answers => do
    let s ← w.objects id
    return w.after id w.files (s.getRemoteAddress w.files answers).2
  | .getLocalAddress id answers => do
    let s ← w.objects id
    return w.after id w.files (s.getLocalAddress w.files answers).2

end Sockets

end Dwframe
