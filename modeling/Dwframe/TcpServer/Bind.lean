import Dwframe.Socket.Addresses

/-!
# `TcpServer::bind`

Every address gets a socket of its own, which is bound and listens. The addresses that fail are
pushed into the vector of the caller, and at the end that vector tells whether one has failed. If
so, `m_socks` is cleared: the sockets of earlier calls are lost as well, and a vector that still
names the failures of an earlier call makes this one fail.

The kernel also knows which descriptors listen. What a system call comes to is given with the
address, as are the objects that somebody else refers to. `bind(addr, ssl)` is the call with one
address and a new vector.
-/
namespace Dwframe

open Lib

structure Addr (α : Type) where
  family : Int
  name : α
  deriving DecidableEq

/-- The sockets and their descriptors, as the server finds them. -/
structure Host (α : Type) extends Sockets α where
  listening : Int → Bool
  /-- Objects that are referred to from outside `m_socks`, as by `startAccept`. -/
  shared : Nat → Bool

namespace Host

variable {α : Type}

/-- `listen` of an object. -/
def listen (h : Host α) (id : Nat) (heard : Bool) : Option (Bool × Host α) := do
  let s ← h.objects id
  if s.listen heard then
    if (h.files s.sock).isSome then
      return (true, { h with listening := Function.update h.listening s.sock true })
    else none
  else return (false, h)

/-- `~Socket` closes. -/
def destroy (h : Host α) (id : Nat) : Host α :=
  match h.objects id with
  | none => h
  | some s =>
    { h with
      objects := Function.update h.objects id none
      files := (s.close h.files).2.1
      listening := if s.sock = -1 then h.listening else Function.update h.listening s.sock false }

/-- `m_socks.clear()`. -/
def clear (h : Host α) (socks : List Nat) : Host α :=
  socks.foldl (fun h id => if h.shared id then h else h.destroy id) h

end Host

/-- An address, the place of its socket, and what the system calls for it come to. -/
structure BindTurn (α : Type) where
  addr : Addr α
  id : Nat
  made : Option (Int × α)
  bound : Option α
  answers : Bool
  heard : Bool

/-- The socket is made, bound and listens. -/
def BindTurn.Succeeds {α : Type} (t : BindTurn α) : Bool :=
  t.made.isSome && t.bound.isSome && t.heard

/-- `bind(addrs, fails, ssl)`; `fails` is what the vector holds before. -/
structure BindCall (α : Type) where
  turns : List (BindTurn α)
  fails : List (Addr α)
  ssl : Bool

/-- `m_socks` and `m_ssl`. -/
structure TcpServer where
  socks : List Nat
  ssl : Bool
  deriving DecidableEq

structure BindResult (α : Type) where
  returned : Bool
  fails : List (Addr α)
  server : TcpServer
  host : Host α

namespace TcpServer

variable {α : Type}

/-- A turn of the loop of `bind`: whether the socket is kept. -/
def bindAddr (h : Host α) (t : BindTurn α) : Option (Bool × Host α) := do
  if (h.objects t.id).isSome then none
  let (done, files, sock) ←
    (Socket.CreateTCP t.addr.family).bind h.files t.addr.family t.made t.bound t.answers
  let h := { h with toSockets := h.after t.id files sock }
  -- at `continue` the only pointer to the socket goes
  if !done then return (false, h.destroy t.id)
  let (done, h) ← h.listen t.id t.heard
  if !done then return (false, h.destroy t.id)
  return (true, h)

/-- The loop of `bind`: `m_socks`, `fails` and the rest behind it. -/
def bindLoop (socks : List Nat) (fails : List (Addr α)) (h : Host α) :
    List (BindTurn α) → Option (List Nat × List (Addr α) × Host α)
  | [] => some (socks, fails, h)
  | t :: rest => do
    let (done, h) ← bindAddr h t
    if done then bindLoop (socks ++ [t.id]) fails h rest
    else bindLoop socks (fails ++ [t.addr]) h rest

def bind (server : TcpServer) (h : Host α) (call : BindCall α) : Option (BindResult α) := do
  let (socks, fails, h) ← bindLoop server.socks call.fails h call.turns
  if !fails.isEmpty then
    -- not only the sockets of this call
    return { returned := false, fails, server := ⟨[], call.ssl⟩, host := h.clear socks }
  return { returned := true, fails, server := ⟨socks, call.ssl⟩, host := h }

end TcpServer

/-! ### One address -/

section Turn

variable {α : Type}

theorem Socket.isVaild_of_nonneg {s : Socket α} (valid : 0 ≤ s.sock) : s.isVaild = true := by
  rw [isVaild, bne_iff_ne]
  omega

/-- A new socket that is bound gets a descriptor, if the kernel has one; it keeps it when the name
is refused. -/
theorem Socket.bind_new {files files' : Files α} {family : Int} {made : Option (Int × α)}
    {bound : Option α} {answers done : Bool} {s : Socket α}
    (ran : (CreateTCP family).bind files family made bound answers = some (done, files', s)) :
    made = none ∧ done = false ∧ files' = files ∧ s.sock = -1 ∨
      ∃ fd name, made = some (fd, name) ∧ 0 ≤ fd ∧ files fd = none ∧ s.sock = fd ∧
        ((bound = none ∧ done = false ∧
            files' = Function.update files fd (some ⟨name, none⟩)) ∨
          ∃ name', bound = some name' ∧ done = true ∧
            files' = Function.update files fd (some ⟨name', none⟩)) := by
  cases made with
  | none =>
    cases ran
    exact .inl ⟨rfl, rfl, rfl, rfl⟩
  | some pair =>
    obtain ⟨fd, name⟩ := pair
    unfold Socket.bind at ran
    obtain ⟨⟨files₁, s₁⟩, acquired, ran⟩ := Option.bind_eq_some_iff.mp ran
    obtain ⟨⟨fd', files₂⟩, opened, acquired⟩ := Option.bind_eq_some_iff.mp acquired
    cases acquired
    rw [Files.socket] at opened
    split at opened
    next free =>
      cases opened
      obtain ⟨valid, unused⟩ := free
      have vaild : isVaild { (CreateTCP family : Socket α) with sock := fd } = true :=
        isVaild_of_nonneg valid
      refine .inr ⟨fd, name, rfl, valid, unused, ?_⟩
      dsimp only at ran
      rw [if_neg (by rw [vaild]; decide), if_neg (fun differ => differ rfl)] at ran
      cases bound with
      | none =>
        cases ran
        exact ⟨rfl, .inl ⟨rfl, rfl, rfl⟩⟩
      | some name' =>
        rw [Files.bind, Function.update_self] at ran
        cases ran
        refine ⟨getLocalAddress_sock .., .inr ⟨name', rfl, rfl, ?_⟩⟩
        rw [Function.update_idem]
    next => cases opened

namespace Host

variable {h h' mid : Host α}

/-- Objects stay as they are, and so do open descriptors. -/
structure Keeps (h h' : Host α) : Prop where
  objects : ∀ id s, h.objects id = some s → h'.objects id = some s
  files : ∀ fd e, h.files fd = some e → h'.files fd = some e ∧ h'.listening fd = h.listening fd

theorem Keeps.refl (h : Host α) : h.Keeps h :=
  ⟨fun _ _ here => here, fun _ _ opened => ⟨opened, rfl⟩⟩

theorem Keeps.trans (first : h.Keeps mid) (later : mid.Keeps h') : h.Keeps h' := by
  refine ⟨fun id s here => later.objects id s (first.objects id s here), fun fd e opened => ?_⟩
  obtain ⟨opened', same⟩ := first.files fd e opened
  obtain ⟨opened'', same'⟩ := later.files fd e opened'
  exact ⟨opened'', same'.trans same⟩

/-- Only a new object and a new descriptor differ. -/
theorem keeps_of_new {id : Nat} {fd : Int} (free : h.objects id = none) (unused : h.files fd = none)
    (objects : ∀ other, other ≠ id → h'.objects other = h.objects other)
    (files : ∀ other, other ≠ fd →
      h'.files other = h.files other ∧ h'.listening other = h.listening other) : h.Keeps h' := by
  refine ⟨fun other s here => ?_, fun other e opened => ?_⟩
  · have differ : other ≠ id := by
      rintro rfl
      exact nomatch free.symm.trans here
    rwa [objects other differ]
  · have differ : other ≠ fd := by
      rintro rfl
      exact nomatch unused.symm.trans opened
    obtain ⟨same, same'⟩ := files other differ
    exact ⟨same.trans opened, same'⟩

/-- The socket of an address has a descriptor that is bound, to the name that the kernel gave, and
listens. -/
def Listens (h : Host α) (t : BindTurn α) : Prop :=
  ∃ s e, h.objects t.id = some s ∧ 0 ≤ s.sock ∧ h.files s.sock = some e ∧
    t.bound = some e.localName ∧ h.listening s.sock = true

theorem Listens.keeps {t : BindTurn α} (listens : h.Listens t) (keeps : h.Keeps h') :
    h'.Listens t := by
  obtain ⟨s, e, here, valid, opened, named, heard⟩ := listens
  obtain ⟨opened', same⟩ := keeps.files s.sock e opened
  exact ⟨s, e, keeps.objects t.id s here, valid, opened', named, same.trans heard⟩

theorem files_close (files : Files α) (s : Socket α) :
    (s.close files).2.1 = if s.sock = -1 then files else Function.update files s.sock none := by
  unfold Socket.close
  split
  next idle =>
    rw [Bool.and_eq_true, beq_iff_eq] at idle
    rw [if_pos idle.2]
  next => by_cases closed : s.sock = -1 <;> simp [closed]

/-- An object made for an address is destroyed again, and its descriptor closed. -/
theorem keeps_destroy {id : Nat} {s : Socket α} {files : Files α} (free : h.objects id = none)
    (made : s.sock = -1 ∧ files = h.files ∨ h.files s.sock = none ∧ 0 ≤ s.sock ∧
      ∃ e, files = Function.update h.files s.sock (some e)) :
    h.Keeps ({ h with toSockets := h.after id files s }.destroy id) := by
  have others : ∀ other, other ≠ id →
      Function.update (Function.update h.objects id (some s)) id none other = h.objects other := by
    intro other differ
    rw [Function.update_of_ne differ, Function.update_of_ne differ]
  simp only [destroy, Sockets.after, Function.update_self, files_close]
  rcases made with ⟨closed, rfl⟩ | ⟨unused, valid, e, rfl⟩
  · -- it never had a descriptor
    simp only [closed, if_true]
    refine ⟨fun other s' here => ?_, fun fd e opened => ⟨opened, rfl⟩⟩
    refine (others other ?_).trans here
    rintro rfl
    rw [free] at here
    cases here
  · have opened : s.sock ≠ -1 := by omega
    simp only [opened, if_false]
    refine keeps_of_new free unused others fun other differ => ?_
    simp [Function.update_of_ne differ]

theorem listen_eq {id : Nat} {s : Socket α} {e : Endpoint α} (here : h.objects id = some s)
    (valid : 0 ≤ s.sock) (opened : h.files s.sock = some e) (heard : Bool) :
    h.listen id heard = some (heard,
      if heard then { h with listening := Function.update h.listening s.sock true } else h) := by
  have vaild := Socket.isVaild_of_nonneg valid
  rw [listen, here]
  cases heard with
  | true => simp [Socket.listen, vaild, opened]
  | false => simp [Socket.listen]

end Host

/-- An address is kept exactly if its calls succeed; nothing else changes. -/
theorem TcpServer.bindAddr_spec {h h' : Host α} {t : BindTurn α} {done : Bool}
    (ran : bindAddr h t = some (done, h')) :
    h.objects t.id = none ∧ h.Keeps h' ∧ done = t.Succeeds ∧ (done = true → h'.Listens t) := by
  unfold bindAddr at ran
  split at ran
  next => cases ran
  next free =>
    rw [Option.isSome_iff_ne_none, Decidable.not_not] at free
    obtain ⟨⟨done', files, s⟩, bound, ran⟩ := Option.bind_eq_some_iff.mp ran
    dsimp only at ran
    refine ⟨free, ?_⟩
    -- no descriptor, a name that is refused, or a socket that is bound
    rcases Socket.bind_new bound with ⟨made, rfl, same, closed⟩ | ⟨fd, name, made, valid, unused,
      rfl, ⟨refused, rfl, rfl⟩ | ⟨name', named, rfl, rfl⟩⟩
    · cases ran
      exact ⟨Host.keeps_destroy free (.inl ⟨closed, same⟩),
        by simp [BindTurn.Succeeds, made], nofun⟩
    · cases ran
      exact ⟨Host.keeps_destroy free (.inr ⟨unused, valid, _, rfl⟩),
        by simp [BindTurn.Succeeds, refused], nofun⟩
    · rw [if_neg (by decide)] at ran
      rw [Host.listen_eq (Function.update_self ..) valid (Function.update_self ..)] at ran
      cases heard : t.heard with
      | false =>
        rw [heard] at ran
        cases ran
        exact ⟨Host.keeps_destroy free (.inr ⟨unused, valid, _, rfl⟩),
          by simp [BindTurn.Succeeds, heard], nofun⟩
      | true =>
        rw [heard] at ran
        cases ran
        refine ⟨Host.keeps_of_new free unused ?_ ?_,
          by simp [BindTurn.Succeeds, made, named, heard], fun _ => ?_⟩
        · exact fun other differ => Function.update_of_ne differ ..
        · exact fun other differ =>
            ⟨Function.update_of_ne differ .., Function.update_of_ne differ ..⟩
        · exact ⟨s, ⟨name', none⟩, Function.update_self .., valid, Function.update_self .., named,
            Function.update_self ..⟩

/-! ### The loop -/

namespace TcpServer

variable {turns rest : List (BindTurn α)} {t : BindTurn α} {socks socks' : List Nat}
  {fails fails' : List (Addr α)} {h h' : Host α}

theorem bindLoop_cons (ran : bindLoop socks fails h (t :: rest) = some (socks', fails', h')) :
    ∃ mid, bindAddr h t = some (t.Succeeds, mid) ∧
      bindLoop (if t.Succeeds then socks ++ [t.id] else socks)
        (if t.Succeeds then fails else fails ++ [t.addr]) mid rest = some (socks', fails', h') := by
  obtain ⟨⟨done, mid⟩, turn, ran⟩ := Option.bind_eq_some_iff.mp ran
  obtain ⟨-, -, rfl, -⟩ := bindAddr_spec turn
  refine ⟨mid, turn, ?_⟩
  cases succeeds : t.Succeeds with
  | false => simpa only [succeeds, Bool.false_eq_true, if_false] using ran
  | true => simpa only [succeeds, if_true] using ran

/-- One socket for each address that succeeds, in order, and each that fails is pushed. -/
theorem bindLoop_lists (ran : bindLoop socks fails h turns = some (socks', fails', h')) :
    socks' = socks ++ (turns.filter BindTurn.Succeeds).map BindTurn.id ∧
      fails' = fails ++ (turns.filter fun t => !t.Succeeds).map BindTurn.addr := by
  induction turns generalizing socks fails h with
  | nil =>
    cases ran
    simp
  | cons t rest ih =>
    obtain ⟨mid, -, ran⟩ := bindLoop_cons ran
    obtain ⟨rfl, rfl⟩ := ih ran
    cases succeeds : t.Succeeds <;> simp [succeeds]

/-- The sockets that are kept are new, each is another one, and they listen in the end. -/
theorem bindLoop_listens (ran : bindLoop socks fails h turns = some (socks', fails', h')) :
    h.Keeps h' ∧ (∀ t ∈ turns, t.Succeeds → h.objects t.id = none ∧ h'.Listens t) ∧
      ((turns.filter BindTurn.Succeeds).map BindTurn.id).Nodup := by
  induction turns generalizing socks fails h with
  | nil =>
    cases ran
    exact ⟨.refl _, nofun, List.nodup_nil⟩
  | cons t rest ih =>
    obtain ⟨mid, turn, ran⟩ := bindLoop_cons ran
    obtain ⟨free, keeps, -, listens⟩ := bindAddr_spec turn
    obtain ⟨keeps', later, nodup⟩ := ih ran
    refine ⟨keeps.trans keeps', ?_, ?_⟩
    · intro t' member ok
      rcases List.mem_cons.mp member with rfl | member
      · exact ⟨free, (listens ok).keeps keeps'⟩
      · obtain ⟨fresh, listens'⟩ := later t' member ok
        refine ⟨?_, listens'⟩
        cases here : h.objects t'.id with
        | none => rfl
        | some s => exact nomatch fresh.symm.trans (keeps.objects t'.id s here)
    · cases succeeds : t.Succeeds with
      | false => rwa [List.filter_cons_of_neg (by simp [succeeds])]
      | true =>
        -- the object of this address is there when the later ones are made
        rw [List.filter_cons_of_pos succeeds, List.map_cons, List.nodup_cons]
        refine ⟨fun again => ?_, nodup⟩
        obtain ⟨t', member, same⟩ := List.mem_map.mp again
        obtain ⟨member, ok⟩ := List.mem_filter.mp member
        obtain ⟨s, -, here, -⟩ := listens succeeds
        rw [← same, (later t' member ok).1] at here
        cases here

end TcpServer

end Turn

/-! ### The outcome -/

section Outcome

variable {α : Type}

/-- `true` exactly if every address is bound and listens, with a socket for each of them behind
the old ones; `false` with the addresses that failed and the old list. -/
structure AllOrNothing (before : TcpServer) (call : BindCall α) (r : BindResult α) : Prop where
  returned : r.returned = true ↔ ∀ t ∈ call.turns, t.Succeeds
  bound : r.returned = true → r.server.socks = before.socks ++ call.turns.map BindTurn.id ∧
    (call.turns.map BindTurn.id).Nodup ∧ ∀ t ∈ call.turns, r.host.Listens t
  failed : r.returned = false → r.server.socks = before.socks ∧
    r.fails = call.fails ++ (call.turns.filter fun t => !t.Succeeds).map BindTurn.addr

namespace TcpServer

/-- The vector names nothing yet where every address succeeds; there is no earlier socket where one
fails. -/
def Meets (before : TcpServer) (call : BindCall α) : Prop :=
  ((∀ t ∈ call.turns, t.Succeeds) → call.fails = []) ∧
    ((∃ t ∈ call.turns, t.Succeeds = false) → before.socks = [])

section Call

variable {server : TcpServer} {h : Host α} {call : BindCall α} {r : BindResult α}

/-- The failures are pushed behind what the vector holds, and the vector decides. -/
theorem bind_result (ran : server.bind h call = some r) :
    r.fails = call.fails ++ (call.turns.filter fun t => !t.Succeeds).map BindTurn.addr ∧
      (r.returned = true ∧ r.fails = [] ∧
          r.server.socks =
            server.socks ++ (call.turns.filter BindTurn.Succeeds).map BindTurn.id ∧
          ((call.turns.filter BindTurn.Succeeds).map BindTurn.id).Nodup ∧
          (∀ t ∈ call.turns, t.Succeeds → r.host.Listens t) ∨
        r.returned = false ∧ r.fails ≠ [] ∧ r.server.socks = []) := by
  obtain ⟨⟨socks, fails, h'⟩, looped, ran⟩ := Option.bind_eq_some_iff.mp ran
  obtain ⟨rfl, pushed⟩ := bindLoop_lists looped
  obtain ⟨-, listens, nodup⟩ := bindLoop_listens looped
  cases fails with
  | nil =>
    cases ran
    exact ⟨pushed, .inl ⟨rfl, rfl, rfl, nodup, fun t member ok => (listens t member ok).2⟩⟩
  | cons addr more =>
    cases ran
    exact ⟨pushed, .inr ⟨rfl, nofun, rfl⟩⟩

theorem bind_of_succeeds (ran : server.bind h call = some r)
    (succeed : ∀ t ∈ call.turns, t.Succeeds) :
    AllOrNothing server call r ↔ call.fails = [] := by
  obtain ⟨pushed, outcome⟩ := bind_result ran
  have none_fails : call.turns.filter (fun t => !t.Succeeds) = [] := by
    rw [List.filter_eq_nil_iff]
    intro t member failed
    rw [succeed t member] at failed
    cases failed
  rw [none_fails, List.map_nil, List.append_nil] at pushed
  rw [List.filter_eq_self.mpr succeed] at outcome
  -- what the vector names now, it has named before
  rcases outcome with ⟨returned, empty, socks, nodup, listens⟩ | ⟨returned, named, -⟩
  · refine iff_of_true ⟨iff_of_true returned succeed, fun _ => ⟨socks, nodup, ?_⟩, ?_⟩
      (pushed.symm.trans empty)
    · exact fun t member => listens t member (succeed t member)
    · exact fun failed => nomatch failed.symm.trans returned
  · refine iff_of_false (fun whole => ?_) (pushed ▸ named)
    exact nomatch returned.symm.trans (whole.returned.mpr succeed)

theorem bind_of_fails (ran : server.bind h call = some r) {t : BindTurn α}
    (member : t ∈ call.turns) (failed : t.Succeeds = false) :
    AllOrNothing server call r ↔ server.socks = [] := by
  obtain ⟨pushed, outcome⟩ := bind_result ran
  have named : t.addr ∈ r.fails := by
    rw [pushed]
    refine List.mem_append_right _ (List.mem_map_of_mem (List.mem_filter.mpr ⟨member, ?_⟩))
    rw [failed]
    rfl
  rcases outcome with ⟨-, empty, -⟩ | ⟨returned, -, cleared⟩
  · rw [empty] at named
    cases named
  · constructor
    · exact fun whole => (whole.failed returned).1.symm.trans cleared
    · intro empty
      refine ⟨iff_of_false ?_ fun succeed => ?_, fun bound => ?_, fun _ => ⟨?_, pushed⟩⟩
      · exact fun bound => nomatch returned.symm.trans bound
      · exact nomatch failed.symm.trans (succeed t member)
      · exact nomatch returned.symm.trans bound
      · rw [cleared, empty]

/-- A call is all or nothing exactly if it meets the condition. -/
theorem bind_iff (ran : server.bind h call = some r) :
    AllOrNothing server call r ↔ server.Meets call := by
  by_cases succeed : ∀ t ∈ call.turns, t.Succeeds
  · rw [bind_of_succeeds ran succeed]
    constructor
    · refine fun empty => ⟨fun _ => empty, ?_⟩
      rintro ⟨t, member, failed⟩
      exact nomatch failed.symm.trans (succeed t member)
    · exact fun meets => meets.1 succeed
  · obtain ⟨t, member, failed⟩ : ∃ t ∈ call.turns, t.Succeeds = false := by
      simpa only [not_forall, exists_prop, Bool.not_eq_true] using succeed
    rw [bind_of_fails ran member failed]
    exact ⟨fun empty => ⟨fun all => absurd all succeed, fun _ => empty⟩,
      fun meets => meets.2 ⟨t, member, failed⟩⟩

end Call

/-- The server and its host, from call to call. -/
def step (w : TcpServer × Host α) (call : BindCall α) : Option (TcpServer × Host α) := do
  let r ← w.1.bind w.2 call
  return (r.server, r.host)

/-- In a run of calls from any state, each call is all or nothing exactly if each meets the
condition in the state that it is made in. -/
theorem bind_all_or_nothing_iff {w final : TcpServer × Host α} {calls : List (BindCall α)}
    (ran : Run.exec step w calls = some final) :
    Run.Along step (fun w call => ∀ r, w.1.bind w.2 call = some r → AllOrNothing w.1 call r) w
        calls ↔ Run.Along step (fun w call => w.1.Meets call) w calls := by
  refine Run.along_congr (fun mid call w' stepped => ?_) ran
  obtain ⟨r, bound, -⟩ := Option.bind_eq_some_iff.mp stepped
  constructor
  · exact fun whole => (bind_iff bound).mp (whole r bound)
  · exact fun meets r' bound' => (bind_iff bound').mpr meets

/-- A server without sockets, and no descriptor. -/
def fresh : TcpServer × Host α := (⟨[], false⟩, ⟨.start, fun _ => false, fun _ => false⟩)

/-- The first call fails at its second address, the next one has a new vector and succeeds. -/
theorem bind_all_or_nothing_iff_retry :
    let first : BindTurn Nat := ⟨⟨2, 80⟩, 0, some (3, 0), some 80, true, true⟩
    let refused : BindTurn Nat := ⟨⟨2, 81⟩, 1, some (4, 0), none, true, true⟩
    let again : BindTurn Nat := ⟨⟨2, 80⟩, 2, some (5, 0), some 80, true, true⟩
    Run.Along step (fun w call => ∀ r, w.1.bind w.2 call = some r → AllOrNothing w.1 call r) fresh
      [⟨[first, refused], [], false⟩, ⟨[again], [], false⟩] := by
  intro first refused again
  refine (bind_all_or_nothing_iff rfl).mpr ⟨⟨fun _ => rfl, fun _ => rfl⟩, ?_⟩
  rintro w ⟨⟩
  exact ⟨⟨fun _ => rfl, fun _ => rfl⟩, fun _ _ => trivial⟩

/-- A call that fails clears the socket of an earlier call; one that binds its address fails with
the vector of an earlier failure. -/
theorem failures_outlast_their_call :
    let bound : BindTurn Nat := ⟨⟨2, 80⟩, 0, some (3, 0), some 80, true, true⟩
    let refused : BindTurn Nat := ⟨⟨2, 81⟩, 1, some (4, 0), none, true, true⟩
    (∃ w r, Run.exec step fresh [⟨[bound], [], false⟩] = some w ∧ w.1.socks = [0] ∧
        w.1.bind w.2 ⟨[refused], [], false⟩ = some r ∧ r.returned = false ∧ r.server.socks = [] ∧
        ¬AllOrNothing w.1 ⟨[refused], [], false⟩ r) ∧
      ∃ r, (⟨[], false⟩ : TcpServer).bind fresh.2 ⟨[bound], [refused.addr], false⟩ = some r ∧
        r.returned = false ∧ r.server.socks = [] ∧
        ¬AllOrNothing ⟨[], false⟩ ⟨[bound], [refused.addr], false⟩ r := by
  intro bound refused
  refine ⟨⟨_, _, rfl, rfl, rfl, rfl, rfl, fun whole => nomatch (whole.failed rfl).1⟩,
    ⟨_, rfl, rfl, rfl, fun whole => ?_⟩⟩
  exact nomatch whole.returned.mpr (by decide)

end TcpServer

end Outcome

end Dwframe
