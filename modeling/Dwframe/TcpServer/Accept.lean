import Dwframe.TcpServer.View
import Mathlib.Algebra.GroupWithZero.Nat
import Mathlib.Data.List.Perm.Basic

/-!
# `TcpServer::start`, `stop` and `startAccept`

`start` schedules a task for each socket, which accepts clients while `m_isStop` is false. `stop`
sets `m_isStop` and leaves it to a lambda that it schedules to close the sockets and to clear
`m_socks`; until the lambda has run, `start` finds the old sockets. A task keeps its socket, also
when `m_socks` no longer has it.

`accept` on a socket that hears may wait, or fail, at any time. A call that waits when its socket is
closed fails (`cancelAll` has woken it), its descriptor not being given out again before that.
-/
namespace Dwframe

open Lib.Run

/-! ### The server -/

/-- Where a task of `startAccept` is. -/
inductive AcceptPc where
  /-- At `while(!m_isStop)`. -/
  | test
  | accept
  deriving DecidableEq, Repr

/-- A task of `startAccept`. -/
structure AcceptTask where
  sock : Nat
  pc : AcceptPc
  deriving DecidableEq, Repr

/-- A server, and what it has scheduled. -/
structure Service (α κ : Type) where
  server : TcpServer
  host : Host α
  isStop : Bool
  recvTimeout : UInt64
  /-- In `m_acceptWorker`. -/
  tasks : List AcceptTask
  /-- The lambdas of `stop` in `m_acceptWorker`. -/
  stops : Nat
  /-- The clients in `m_ioWorker`, for `handleClient`, with their timeouts. -/
  clients : List (κ × UInt64)

inductive ServiceAction (α κ : Type) where
  | bind (call : BindCall α)
  | start
  | stop
  /-- A lambda of `stop`. -/
  | close
  | setRecvTimeout (v : UInt64)
  /-- The task goes on at `while`. -/
  | test (task : Nat)
  /-- Its `accept` returns, null where it fails. -/
  | accept (task : Nat) (client : Option κ)

namespace Service

variable {α κ : Type}

/-- A new server. -/
def fresh (recvTimeout : UInt64) : Service α κ :=
  ⟨⟨[], false⟩, TcpServer.fresh.2, true, recvTimeout, [], 0, []⟩

def shared (tasks : List AcceptTask) (id : Nat) : Bool := tasks.any fun t => t.sock == id

/-- The host, with what the tasks refer to. -/
def held (s : Service α κ) : Host α := { s.host with shared := shared s.tasks }

/-- The host when a task on `id` is gone. -/
def released (s : Service α κ) (rest : List AcceptTask) (id : Nat) : Host α :=
  if id ∈ s.server.socks ∨ shared rest id = true then s.host else s.host.destroy id

def step (s : Service α κ) : ServiceAction α κ → Option (Service α κ)
  | .bind call => do
    let r ← s.server.bind s.held call
    return { s with server := r.server, host := r.host }
  | .start =>
    if s.isStop then
      some { s with
        isStop := false, tasks := s.tasks ++ s.server.socks.map fun id => ⟨id, .test⟩ }
    else some s -- returns true as well
  | .stop => some { s with isStop := true, stops := s.stops + 1 }
  | .close =>
    if s.stops = 0 then none
    else
      -- `m_socks` as it is now, not as it was at the call of `stop`
      some { s with
        server := { s.server with socks := [] }
        host := (s.server.socks.foldl Host.close s.held).clear s.server.socks
        stops := s.stops - 1 }
  | .setRecvTimeout v => some { s with recvTimeout := v }
  | .test task =>
    match s.tasks[task]? with
    | some ⟨id, .test⟩ =>
      if s.isStop then
        some { s with
          tasks := s.tasks.eraseIdx task, host := s.released (s.tasks.eraseIdx task) id }
      else some { s with tasks := s.tasks.set task ⟨id, .accept⟩ }
    | _ => none
  | .accept task client =>
    match s.tasks[task]? with
    | some ⟨id, .accept⟩ =>
      match client with
      | none =>
        -- the error is logged, and the loop goes on
        some { s with tasks := s.tasks.set task ⟨id, .test⟩ }
      | some client =>
        if s.host.view id = some true then
          some { s with
            tasks := s.tasks.set task ⟨id, .test⟩
            clients := s.clients ++ [(client, s.recvTimeout)] }
        else none
    | _ => none

/-- The sockets of the server hear, and those of the tasks are there. -/
structure Orderly (s : Service α κ) : Prop where
  sound : s.host.Sound
  hears : ∀ id ∈ s.server.socks, s.host.view id = some true
  nodup : s.server.socks.Nodup
  held : ∀ t ∈ s.tasks, s.host.view t.sock ≠ none

/-- While the server runs each of its sockets has one task, and no other socket has any; when it is
stopped, a lambda is left to close the sockets that tasks wait on. -/
structure Served (s : Service α κ) : Prop where
  serving : s.isStop = false → (s.tasks.map AcceptTask.sock).Perm s.server.socks
  stopping : s.isStop = true → ∀ t ∈ s.tasks, s.host.view t.sock = some true →
    t.sock ∈ s.server.socks ∧ 0 < s.stops

variable {s s' : Service α κ}

theorem held_sound (sound : s.host.Sound) : s.held.Sound := ⟨sound.opened, sound.distinct⟩

theorem shared_iff {tasks : List AcceptTask} {id : Nat} :
    shared tasks id = true ↔ ∃ t ∈ tasks, t.sock = id := by
  simp [shared]

/-! ### One step -/

theorem orderly_fresh (recvTimeout : UInt64) : (fresh recvTimeout : Service α κ).Orderly := by
  refine ⟨⟨?_, ?_⟩, ?_, List.nodup_nil, ?_⟩
  · intro id s here
    cases here
  · intro id id' s s' here
    cases here
  · intro id member
    exact absurd member List.not_mem_nil
  · intro t member
    exact absurd member List.not_mem_nil

/-- The lambda closes the sockets, and tasks keep them. -/
theorem close_view (orderly : s.Orderly) :
    ((s.server.socks.foldl Host.close s.held).clear s.server.socks).Sound ∧
      ∀ t ∈ s.tasks, ((s.server.socks.foldl Host.close s.held).clear s.server.socks).view t.sock =
        if t.sock ∈ s.server.socks then some false else s.host.view t.sock := by
  obtain ⟨sound', view'⟩ := Host.closeAll_sound (held_sound orderly.sound) s.server.socks
  obtain ⟨sound'', view''⟩ := Host.clear_sound sound' s.server.socks
  refine ⟨sound'', fun t member => ?_⟩
  have kept : shared s.tasks t.sock = true := shared_iff.mpr ⟨t, member, rfl⟩
  have stays : ¬(t.sock ∈ s.server.socks ∧ s.held.shared t.sock = false) :=
    fun gone => absurd (kept.symm.trans gone.2) (by decide)
  rw [view'', Host.closeAll_shared, if_neg stays, view']
  split
  next here =>
    change (s.host.view t.sock).map _ = _
    rw [orderly.hears t.sock here]
    rfl
  next => rfl

/-- A task leaves to the server and to the other tasks what they have. -/
theorem released_view (orderly : s.Orderly) (rest : List AcceptTask) (id : Nat) :
    (s.released rest id).Sound ∧ ∀ id', id' ∈ s.server.socks ∨ shared rest id' = true →
      (s.released rest id).view id' = s.host.view id' := by
  unfold released
  split
  next => exact ⟨orderly.sound, fun _ _ => rfl⟩
  next alone =>
    obtain ⟨sound', view'⟩ := Host.destroy_sound orderly.sound id
    refine ⟨sound', fun id' used => ?_⟩
    have differ : id' ≠ id := by
      rintro rfl
      exact alone used
    rw [view', Function.update_of_ne differ]

/-- A task that goes on keeps its socket. -/
theorem map_sock_set {tasks : List AcceptTask} {task id : Nat} {pc : AcceptPc}
    (here : tasks[task]? = some ⟨id, pc⟩) (pc' : AcceptPc) :
    (tasks.set task ⟨id, pc'⟩).map AcceptTask.sock = tasks.map AcceptTask.sock := by
  obtain ⟨inside, there⟩ := List.getElem?_eq_some_iff.mp here
  rw [List.map_set]
  apply List.ext_getElem (by simp)
  intro n inside' inside''
  rw [List.getElem_set]
  split
  next same =>
    subst same
    simp [there]
  next => rfl

theorem held_set {tasks : List AcceptTask} {task id : Nat} {pc : AcceptPc} {p : Nat → Prop}
    (held : ∀ t ∈ tasks, p t.sock) (here : tasks[task]? = some ⟨id, pc⟩) (pc' : AcceptPc) :
    ∀ t ∈ tasks.set task ⟨id, pc'⟩, p t.sock := by
  intro t member
  have there := List.mem_map_of_mem (f := AcceptTask.sock) member
  rw [map_sock_set here pc'] at there
  obtain ⟨t', member', same⟩ := List.mem_map.mp there
  rw [← same]
  exact held t' member'

/-- What a step can do. -/
inductive Steps (s : Service α κ) : ServiceAction α κ → Service α κ → Prop where
  | bind {call : BindCall α} {r : BindResult α} (bound : s.server.bind s.held call = some r) :
    Steps s (.bind call) { s with server := r.server, host := r.host }
  | start (stopped : s.isStop = true) : Steps s .start { s with
      isStop := false, tasks := s.tasks ++ s.server.socks.map fun id => ⟨id, .test⟩ }
  | running (running : s.isStop = false) : Steps s .start s
  | stop : Steps s .stop { s with isStop := true, stops := s.stops + 1 }
  | close (pending : 0 < s.stops) : Steps s .close { s with
      server := { s.server with socks := [] }
      host := (s.server.socks.foldl Host.close s.held).clear s.server.socks
      stops := s.stops - 1 }
  | setRecvTimeout (v : UInt64) : Steps s (.setRecvTimeout v) { s with recvTimeout := v }
  | leave {task id : Nat} (here : s.tasks[task]? = some ⟨id, .test⟩) (stopped : s.isStop = true) :
    Steps s (.test task) { s with
      tasks := s.tasks.eraseIdx task, host := s.released (s.tasks.eraseIdx task) id }
  | enter {task id : Nat} (here : s.tasks[task]? = some ⟨id, .test⟩) (running : s.isStop = false) :
    Steps s (.test task) { s with tasks := s.tasks.set task ⟨id, .accept⟩ }
  | fail {task id : Nat} (here : s.tasks[task]? = some ⟨id, .accept⟩) :
    Steps s (.accept task none) { s with tasks := s.tasks.set task ⟨id, .test⟩ }
  | accept {task id : Nat} (client : κ) (here : s.tasks[task]? = some ⟨id, .accept⟩)
    (hears : s.host.view id = some true) : Steps s (.accept task (some client)) { s with
      tasks := s.tasks.set task ⟨id, .test⟩
      clients := s.clients ++ [(client, s.recvTimeout)] }

theorem steps_of_step {act : ServiceAction α κ} (stepped : s.step act = some s') :
    s.Steps act s' := by
  cases act with
  | bind call =>
    obtain ⟨r, bound, stepped⟩ := Option.bind_eq_some_iff.mp stepped
    cases stepped
    exact .bind bound
  | start =>
    simp only [step] at stepped
    split at stepped
    next stopped =>
      cases stepped
      exact .start stopped
    next running =>
      cases stepped
      exact .running (Bool.not_eq_true _ ▸ running)
  | stop =>
    cases stepped
    exact .stop
  | close =>
    simp only [step] at stepped
    split at stepped
    next => cases stepped
    next pending =>
      cases stepped
      exact .close (Nat.pos_of_ne_zero pending)
  | setRecvTimeout v =>
    cases stepped
    exact .setRecvTimeout v
  | test task =>
    simp only [step] at stepped
    split at stepped
    next id here =>
      split at stepped
      next stopped =>
        cases stepped
        exact .leave here stopped
      next running =>
        cases stepped
        exact .enter here (Bool.not_eq_true _ ▸ running)
    next => cases stepped
  | accept task client =>
    simp only [step] at stepped
    split at stepped
    next id here =>
      cases client with
      | none =>
        cases stepped
        exact .fail here
      | some client =>
        dsimp only at stepped
        split at stepped
        next hears =>
          cases stepped
          exact .accept client here hears
        next => cases stepped
    next => cases stepped

/-- Every step keeps the sockets in order. -/
theorem Orderly.step {act : ServiceAction α κ} (orderly : s.Orderly)
    (stepped : s.step act = some s') : s'.Orderly := by
  obtain ⟨sound, hears, nodup, held⟩ := orderly
  have orderly : s.Orderly := ⟨sound, hears, nodup, held⟩
  cases steps_of_step stepped with
  | bind bound =>
    rename_i call r
    have kept : ∀ t ∈ s.tasks, shared s.tasks t.sock = true :=
      fun t member => shared_iff.mpr ⟨t, member, rfl⟩
    by_cases fails : TcpServer.Fails call
    · obtain ⟨sound', none_left, view'⟩ := TcpServer.bind_fails (held_sound sound) bound fails
      refine ⟨sound', ?_, ?_, fun t member => ?_⟩
      · simp [none_left]
      · simp [none_left]
      · rw [view' t.sock (kept t member) (held t member)]
        exact held t member
    · obtain ⟨sound', socks', nodup', new, view'⟩ :=
        TcpServer.bind_binds (held_sound sound) bound fails
      have old : ∀ id, s.host.view id ≠ none → r.host.view id = s.host.view id := by
        intro id there
        rw [view', if_neg (fun member => there (new id member))]
        rfl
      refine ⟨sound', fun id member => ?_, ?_, fun t member => ?_⟩
      · rw [socks', List.mem_append] at member
        rcases member with member | member
        · rw [old id (by simp [hears id member])]
          exact hears id member
        · rw [view', if_pos member]
      · -- the new objects were not there, those of the server were
        rw [socks', List.nodup_append]
        refine ⟨nodup, nodup', fun id member id' member' same => ?_⟩
        subst same
        have unseen := new id member'
        change s.host.view id = none at unseen
        rw [hears id member] at unseen
        cases unseen
      · rw [old t.sock (held t member)]
        exact held t member
  | start stopped =>
    refine ⟨sound, hears, nodup, fun t member => ?_⟩
    rcases List.mem_append.mp member with member | member
    · exact held t member
    · obtain ⟨id, here, rfl⟩ := List.mem_map.mp member
      simp [hears id here]
  | running => exact orderly
  | stop => exact ⟨sound, hears, nodup, held⟩
  | close pending =>
    -- the tasks keep their objects, closed or not
    obtain ⟨sound', view'⟩ := close_view orderly
    refine ⟨sound', by simp, by simp, fun t member => ?_⟩
    rw [view' t member]
    split
    next => simp
    next => exact held t member
  | setRecvTimeout v => exact ⟨sound, hears, nodup, held⟩
  | leave here stopped =>
    rename_i task id
    obtain ⟨sound', view'⟩ := released_view orderly (s.tasks.eraseIdx task) id
    refine ⟨sound', fun id member => ?_, nodup, fun t' member => ?_⟩
    · rw [view' id (.inl member)]
      exact hears id member
    · rw [view' t'.sock (.inr (shared_iff.mpr ⟨t', member, rfl⟩))]
      exact held t' (List.mem_of_mem_eraseIdx member)
  | enter here =>
    exact ⟨sound, hears, nodup, held_set (p := fun id => s.host.view id ≠ none) held here .accept⟩
  | fail here =>
    exact ⟨sound, hears, nodup, held_set (p := fun id => s.host.view id ≠ none) held here .test⟩
  | accept _ here =>
    exact ⟨sound, hears, nodup, held_set (p := fun id => s.host.view id ≠ none) held here .test⟩

/-- `start` comes when no task is left, a lambda runs before it, and `bind` comes while the server
is stopped; a `bind` that fails, while no task can wait for a client. -/
def Ok (s : Service α κ) : ServiceAction α κ → Prop
  | .bind call =>
    if TcpServer.Fails call then ∀ t ∈ s.tasks, s.host.view t.sock ≠ some true
    else s.isStop = true ∨ call.turns = []
  | .start => s.isStop = true → s.tasks = []
  | .close => s.isStop = true ∨ s.server.socks = []
  | .stop | .setRecvTimeout _ | .test _ | .accept _ _ => True

instance decidableOk (s : Service α κ) : ∀ act, Decidable (s.Ok act)
  | .bind call =>
    inferInstanceAs (Decidable (if TcpServer.Fails call then
      ∀ t ∈ s.tasks, s.host.view t.sock ≠ some true else s.isStop = true ∨ call.turns = []))
  | .start => inferInstanceAs (Decidable (s.isStop = true → s.tasks = []))
  | .close => inferInstanceAs (Decidable (s.isStop = true ∨ s.server.socks = []))
  | .stop | .setRecvTimeout _ | .test _ | .accept _ _ => .isTrue trivial

theorem perm_append_iff {tasks : List AcceptTask} {socks more : List Nat}
    (serving : (tasks.map AcceptTask.sock).Perm socks) :
    (tasks.map AcceptTask.sock).Perm (socks ++ more) ↔ more = [] := by
  constructor
  · intro serving'
    have same := serving.length_eq.symm.trans serving'.length_eq
    rw [List.length_append] at same
    exact List.eq_nil_of_length_eq_zero (by omega)
  · rintro rfl
    rw [List.append_nil]
    exact serving

theorem perm_nil_iff {tasks : List AcceptTask} {socks : List Nat}
    (serving : (tasks.map AcceptTask.sock).Perm socks) :
    (tasks.map AcceptTask.sock).Perm [] ↔ socks = [] := by
  rw [List.perm_nil]
  constructor
  · intro empty
    rw [empty] at serving
    exact List.nil_perm.mp serving
  · rintro rfl
    exact List.perm_nil.mp serving

/-- While the server runs, its tasks are on sockets that hear. -/
theorem waiting_iff (orderly : s.Orderly) (serving : (s.tasks.map AcceptTask.sock).Perm
    s.server.socks) : (∀ t ∈ s.tasks, s.host.view t.sock ≠ some true) ↔ s.server.socks = [] := by
  constructor
  · intro none_waits
    refine List.eq_nil_iff_forall_not_mem.mpr fun id member => ?_
    obtain ⟨t, member', rfl⟩ := List.mem_map.mp (serving.mem_iff.mpr member)
    exact none_waits t member' (orderly.hears t.sock member)
  · intro empty t member
    have there := serving.mem_iff.mp (List.mem_map_of_mem member)
    rw [empty] at there
    exact absurd there List.not_mem_nil

theorem served_iff_of_running (running : s.isStop = false) :
    s.Served ↔ (s.tasks.map AcceptTask.sock).Perm s.server.socks := by
  constructor
  · exact fun served => served.serving running
  · refine fun serving => ⟨fun _ => serving, fun stopped => ?_⟩
    rw [running] at stopped
    cases stopped

theorem served_iff_of_stopped (stopped : s.isStop = true) :
    s.Served ↔ ∀ t ∈ s.tasks, s.host.view t.sock = some true →
      t.sock ∈ s.server.socks ∧ 0 < s.stops := by
  constructor
  · exact fun served => served.stopping stopped
  · refine fun stopping => ⟨fun running => ?_, fun _ => stopping⟩
    rw [stopped] at running
    cases running

theorem running_or_stopped (s : Service α κ) : s.isStop = false ∨ s.isStop = true :=
  (Bool.eq_false_or_eq_true s.isStop).symm

/-- A task that goes on changes nothing here. -/
theorem Served.goesOn {task id : Nat} {pc : AcceptPc} (served : s.Served)
    (here : s.tasks[task]? = some ⟨id, pc⟩) (pc' : AcceptPc) (clients : List (κ × UInt64)) :
    ({ s with tasks := s.tasks.set task ⟨id, pc'⟩, clients := clients } :
      Service α κ).Served := by
  refine ⟨fun runs => ?_, fun stopped => ?_⟩
  · rw [map_sock_set here]
    exact served.serving runs
  · exact held_set (p := fun id => s.host.view id = some true →
      id ∈ s.server.socks ∧ 0 < s.stops) (served.stopping stopped) here pc'

theorem served_bind {call : BindCall α} {r : BindResult α} (orderly : s.Orderly)
    (served : s.Served) (bound : s.server.bind s.held call = some r) :
    ({ s with server := r.server, host := r.host } : Service α κ).Served ↔
      s.Ok (.bind call) := by
  have kept : ∀ t ∈ s.tasks, shared s.tasks t.sock = true :=
    fun t member => shared_iff.mpr ⟨t, member, rfl⟩
  rw [Ok]
  split
  next fails =>
    obtain ⟨-, none_left, view'⟩ := TcpServer.bind_fails (held_sound orderly.sound) bound fails
    have same : ∀ t ∈ s.tasks, r.host.view t.sock = s.host.view t.sock :=
      fun t member => view' t.sock (kept t member) (orderly.held t member)
    rcases s.running_or_stopped with running | stopped
    · have serving := served.serving running
      rw [waiting_iff orderly serving, ← perm_nil_iff serving, ← none_left]
      exact served_iff_of_running running
    · -- the sockets that tasks wait on are lost
      refine (served_iff_of_stopped (by exact stopped)).trans ?_
      refine forall₂_congr fun t member => ?_
      dsimp only
      rw [none_left, same t member]
      simp
  next binds =>
    obtain ⟨-, socks', -, new, view'⟩ := TcpServer.bind_binds (held_sound orderly.sound) bound binds
    rcases s.running_or_stopped with running | stopped
    · have serving := served.serving running
      have runs : (s.isStop = true ∨ call.turns = []) ↔ call.turns.map BindTurn.id = [] := by
        simp [running]
      rw [runs, ← perm_append_iff serving, ← socks']
      exact served_iff_of_running running
    · refine iff_of_true ?_ (.inl stopped)
      refine (served_iff_of_stopped (by exact stopped)).mpr fun t member waits => ?_
      -- it is not one of the new sockets
      have old : r.host.view t.sock = s.host.view t.sock := by
        rw [view', if_neg (fun there => orderly.held t member (new t.sock there))]
        rfl
      obtain ⟨there, pending⟩ := served.stopping stopped t member (old.symm.trans waits)
      refine ⟨?_, pending⟩
      rw [socks']
      exact List.mem_append_left _ there

theorem served_close (orderly : s.Orderly) (served : s.Served) :
    ({ s with
        server := { s.server with socks := [] }
        host := (s.server.socks.foldl Host.close s.held).clear s.server.socks
        stops := s.stops - 1 } : Service α κ).Served ↔ s.Ok .close := by
  obtain ⟨-, view'⟩ := close_view orderly
  rw [Ok]
  rcases s.running_or_stopped with running | stopped
  · -- the tasks are left with closed sockets
    rw [or_iff_right (by simp [running]), ← perm_nil_iff (served.serving running)]
    exact served_iff_of_running running
  · refine iff_of_true ?_ (.inl stopped)
    refine (served_iff_of_stopped (by exact stopped)).mpr fun t member waits => ?_
    have waits : (if t.sock ∈ s.server.socks then some false else s.host.view t.sock) =
        some true := (view' t member).symm.trans waits
    split at waits
    next => cases waits
    next elsewhere => exact absurd (served.stopping stopped t member waits).1 elsewhere

/-- Exactly these steps keep a server served. -/
theorem served_step_iff {act : ServiceAction α κ} (orderly : s.Orderly) (served : s.Served)
    (stepped : s.step act = some s') : s'.Served ↔ s.Ok act := by
  cases steps_of_step stepped with
  | bind bound => exact served_bind orderly served bound
  | start stopped =>
    rw [Ok]
    constructor
    · intro served' _
      have serving := (served'.serving rfl).length_eq
      simp only [List.map_append, List.length_append, List.length_map] at serving
      exact List.eq_nil_of_length_eq_zero (by omega)
    · intro ended
      refine (served_iff_of_running rfl).mpr ?_
      dsimp only
      rw [ended stopped, List.nil_append, List.map_map]
      exact .of_eq (List.map_id _)
  | running running =>
    refine iff_of_true served fun stopped => ?_
    rw [running] at stopped
    cases stopped
  | stop =>
    refine iff_of_true ((served_iff_of_stopped rfl).mpr fun t member waits => ?_) trivial
    refine ⟨?_, Nat.succ_pos _⟩
    rcases s.running_or_stopped with running | stopped
    · exact (served.serving running).mem_iff.mp (List.mem_map_of_mem member)
    · exact (served.stopping stopped t member waits).1
  | close => exact served_close orderly served
  | setRecvTimeout => exact iff_of_true ⟨served.serving, served.stopping⟩ trivial
  | leave here stopped =>
    rename_i task id
    -- what the other tasks refer to is not destroyed
    obtain ⟨-, view'⟩ := released_view orderly (s.tasks.eraseIdx task) id
    refine iff_of_true ?_ trivial
    refine (served_iff_of_stopped (by exact stopped)).mpr fun t member waits => ?_
    have same := view' t.sock (.inr (shared_iff.mpr ⟨t, member, rfl⟩))
    exact served.stopping stopped t (List.mem_of_mem_eraseIdx member) (same.symm.trans waits)
  | enter here => exact iff_of_true (served.goesOn here .accept _) trivial
  | fail here => exact iff_of_true (served.goesOn here .test _) trivial
  | accept _ here => exact iff_of_true (served.goesOn here .test _) trivial

/-! ### Whole runs -/

/-- Over every run of a new server: each state passed has the sockets served if and only if `start`
and `bind` come in the states where they may. -/
theorem served_throughout_iff (recvTimeout : UInt64) {actions : List (ServiceAction α κ)}
    {final : Service α κ} (ran : exec step (fresh recvTimeout) actions = some final) :
    (∀ n s, exec step (fresh recvTimeout) (actions.take n) = some s → s.Served) ↔
      Along step Ok (fresh recvTimeout) actions := by
  have served : (fresh recvTimeout : Service α κ).Served := by
    refine ⟨fun runs => ?_, fun _ t member => ?_⟩
    · cases runs
    · exact absurd member List.not_mem_nil
  have exact : ∀ (s : Service α κ) act s', s.Orderly → s.Served → s.step act = some s' →
      s'.Orderly ∧ (s'.Served ↔ s.Ok act) :=
    fun s act s' orderly served stepped =>
      ⟨orderly.step stepped, served_step_iff orderly served stepped⟩
  exact along_iff_prefixes exact (orderly_fresh recvTimeout) served ran

/-- `start` behind `stop`, in front of its lambda: the server runs, with two tasks on a socket that
is closed. -/
theorem served_throughout_iff_restarted :
    let call : BindCall Nat := ⟨[⟨⟨2, 80⟩, 0, some (3, 0), some 80, true, true⟩], [], false⟩
    let actions : List (ServiceAction Nat Unit) :=
      [.bind call, .start, .test 0, .stop, .start, .close, .accept 0 none]
    ∃ final, exec step (fresh 120000) actions = some final ∧ final.isStop = false ∧
      final.server.socks = [] ∧ final.tasks = [⟨0, .test⟩, ⟨0, .test⟩] ∧
      final.host.view 0 = some false ∧
      ¬∀ n s, exec step (fresh 120000) (actions.take n) = some s → s.Served := by
  intro call actions
  refine ⟨_, rfl, rfl, rfl, rfl, rfl, ?_⟩
  rw [served_throughout_iff 120000 (rfl : exec step (fresh 120000) actions = some _)]
  decide

/-- The weight of the tasks, by where they are. -/
def weight (weigh : AcceptPc → Nat) (tasks : List AcceptTask) : Nat :=
  (tasks.map fun t => weigh t.pc).sum

/-- How many steps a task of a stopped server has left. -/
def toLeave : AcceptPc → Nat
  | .test => 1
  | .accept => 2

/-- How many clients it may still bring. -/
def toAccept : AcceptPc → Nat
  | .test => 0
  | .accept => 1

def left (s : Service α κ) : Nat := weight toLeave s.tasks

def waiting (s : Service α κ) : Nat := weight toAccept s.tasks

/-- Whether it is a task that goes on. -/
def moves : ServiceAction α κ → Nat
  | .test _ | .accept _ _ => 1
  | .bind _ | .start | .stop | .close | .setRecvTimeout _ => 0

section Weight

variable {tasks : List AcceptTask} {task id : Nat} {pc : AcceptPc} (weigh : AcceptPc → Nat)

theorem weight_eraseIdx (here : tasks[task]? = some ⟨id, pc⟩) :
    weight weigh tasks = weigh pc + weight weigh (tasks.eraseIdx task) := by
  obtain ⟨inside, there⟩ := List.getElem?_eq_some_iff.mp here
  have perm := (List.getElem_cons_eraseIdx_perm inside).map fun t : AcceptTask => weigh t.pc
  rw [there] at perm
  exact perm.sum_nat.symm

theorem weight_set (here : tasks[task]? = some ⟨id, pc⟩) (pc' : AcceptPc) :
    weight weigh (tasks.set task ⟨id, pc'⟩) = weigh pc' + weight weigh (tasks.eraseIdx task) := by
  obtain ⟨inside, -⟩ := List.getElem?_eq_some_iff.mp here
  have perm := List.set_perm_cons_eraseIdx inside (⟨id, pc'⟩ : AcceptTask)
  exact (perm.map fun t : AcceptTask => weigh t.pc).sum_nat

end Weight

/-- A stopped server stays so without `start`; each move of a task is one less to come, and no
client comes but for a task in `accept`. -/
theorem stopped_step {act : ServiceAction α κ} (stopped : s.isStop = true) (other : act ≠ .start)
    (stepped : s.step act = some s') : s'.isStop = true ∧ moves act + s'.left = s.left ∧
      s'.clients.length + s'.waiting ≤ s.clients.length + s.waiting := by
  cases steps_of_step stepped with
  | bind | setRecvTimeout | close => exact ⟨stopped, Nat.zero_add _, Nat.le_refl _⟩
  | stop => exact ⟨rfl, Nat.zero_add _, Nat.le_refl _⟩
  | start => exact absurd rfl other
  | running => exact absurd rfl other
  | leave here =>
    refine ⟨stopped, ?_, ?_⟩
    · simp only [left, moves, weight_eraseIdx toLeave here, toLeave]
    · simp only [waiting, weight_eraseIdx toAccept here, toAccept]
      omega
  | enter here running => exact absurd (running.symm.trans stopped) (by decide)
  | fail here =>
    refine ⟨stopped, ?_, ?_⟩
    · simp only [left, moves, weight_set toLeave here, weight_eraseIdx toLeave here, toLeave]
      omega
    · simp only [waiting, weight_set toAccept here, weight_eraseIdx toAccept here, toAccept]
      omega
  | accept client here =>
    refine ⟨stopped, ?_, ?_⟩
    · simp only [left, moves, weight_set toLeave here, weight_eraseIdx toLeave here, toLeave]
      omega
    · simp only [waiting, weight_set toAccept here, weight_eraseIdx toAccept here, toAccept,
        List.length_append, List.length_singleton]
      omega

theorem stopped_run {more : List (ServiceAction α κ)} (stopped : s.isStop = true)
    (others : ∀ act ∈ more, act ≠ .start) (ran : exec step s more = some s') :
    s'.isStop = true ∧ (more.map moves).sum + s'.left = s.left ∧
      s'.clients.length + s'.waiting ≤ s.clients.length + s.waiting := by
  induction more generalizing s with
  | nil =>
    cases ran
    exact ⟨stopped, Nat.zero_add _, Nat.le_refl _⟩
  | cons act rest ih =>
    obtain ⟨mid, stepped, ran⟩ := Option.bind_eq_some_iff.mp ran
    obtain ⟨other, others⟩ := List.forall_mem_cons.mp others
    obtain ⟨stopped', fewer, clients⟩ := stopped_step stopped other stepped
    obtain ⟨stopped'', fewer', clients'⟩ := ih stopped' others ran
    rw [List.map_cons, List.sum_cons]
    exact ⟨stopped'', by omega, by omega⟩

/-- A stopped server that was served winds down: while there is no `start`, the moves of its tasks
are numbered, each task in `accept` brings one more client at most, and when the lambdas have
run no task can wait. -/
theorem winds_down (recvTimeout : UInt64) {actions more : List (ServiceAction α κ)}
    (along : Along step Ok (fresh recvTimeout) (actions ++ more))
    (ran : exec step (fresh recvTimeout) actions = some s) (stopped : s.isStop = true)
    (others : ∀ act ∈ more, act ≠ .start) (ran' : exec step s more = some s') :
    (more.map moves).sum + s'.left = s.left ∧
      s'.clients.length ≤ s.clients.length + s.waiting ∧
      (s'.stops = 0 → ∀ t ∈ s'.tasks, s'.host.view t.sock = some false) := by
  obtain ⟨stopped', fewer, clients⟩ := stopped_run stopped others ran'
  refine ⟨fewer, by omega, fun done t member => ?_⟩
  have whole : exec step (fresh recvTimeout) (actions ++ more) = some s' := by
    rw [exec_append, ran]
    exact ran'
  have served := (served_throughout_iff recvTimeout whole).mpr along (actions ++ more).length s'
    (by rw [List.take_length]; exact whole)
  have orderly : s'.Orderly :=
    exec_invariant Orderly (fun s act s' orderly _ stepped => orderly.step stepped)
      (orderly_fresh recvTimeout) (along_trivial _ _) whole
  cases seen : s'.host.view t.sock with
  | none => exact absurd seen (orderly.held t member)
  | some hears =>
    cases hears with
    | false => rfl
    | true =>
      -- a lambda would be left
      have pending := (served.stopping stopped' t member seen).2
      omega

/-- The lambda runs while the task is in `accept`. -/
theorem winds_down_waiting :
    let call : BindCall Nat := ⟨[⟨⟨2, 80⟩, 0, some (3, 0), some 80, true, true⟩], [], false⟩
    let actions : List (ServiceAction Nat Unit) := [.bind call, .start, .test 0, .stop]
    let more : List (ServiceAction Nat Unit) := [.close, .accept 0 none]
    ∃ s s', exec step (fresh 120000) actions = some s ∧ exec step s more = some s' ∧
      1 + s'.left = s.left ∧ s'.clients.length ≤ s.clients.length + s.waiting ∧
      (s'.stops = 0 → ∀ t ∈ s'.tasks, s'.host.view t.sock = some false) := by
  intro call actions more
  have along : Along step Ok (fresh 120000) (actions ++ more) := by decide
  obtain ⟨s, ran, stopped⟩ : ∃ s, exec step (fresh 120000) actions = some s ∧ s.isStop = true :=
    ⟨_, rfl, rfl⟩
  obtain ⟨s', ran'⟩ : ∃ s', exec step s more = some s' := by
    have whole : ∃ s', exec step (fresh 120000) (actions ++ more) = some s' := ⟨_, rfl⟩
    rw [exec_append, ran] at whole
    exact whole
  have others : ∀ act ∈ more, act ≠ .start := by simp [more]
  obtain ⟨moved, clients, closed⟩ := winds_down 120000 along ran stopped others ran'
  exact ⟨s, s', ran, ran', moved, clients, closed⟩

end Service

end Dwframe
