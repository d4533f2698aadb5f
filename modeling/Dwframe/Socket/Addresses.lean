import Dwframe.Socket.Model
import Dwframe.Lib.Run

/-!
# The addresses of a connected socket

A connected socket should report the names of the descriptor it has now. What it keeps of an
earlier descriptor, or of the present one before it was bound or connected, is never asked for
again; so the calls that change the descriptor of a socket or its names are right as long as
nothing else was kept. Two sockets have one descriptor only through `init`.
-/
namespace Dwframe

open Lib Lib.Run

variable {α : Type}

namespace Socket

variable {files : Files α} {s : Socket α} {e : Endpoint α}

/-- The socket has an open descriptor and reports its two names, as they are now. -/
def Sound (files : Files α) (s : Socket α) : Prop :=
  ∃ e, files s.sock = some e ∧
    (s.getLocalAddress files true).1 = .address s.family e.localName ∧
    (s.getRemoteAddress files true).1 =
      match e.peerName with
      | none => .unknown s.family
      | some name => .address s.family name

/-- What the socket keeps are the names of `e`. -/
structure Agrees (s : Socket α) (e : Endpoint α) : Prop where
  localAddress : ∀ name, s.localAddress = some name → name = e.localName
  remoteAddress : ∀ name, s.remoteAddress = some name → e.peerName = some name

theorem sound_iff : Sound files s ↔ ∃ e, files s.sock = some e ∧ Agrees s e := by
  apply exists_congr
  intro e
  apply and_congr_right
  intro opened
  have here : (s.getLocalAddress files true).1 = .address s.family e.localName ↔
      ∀ name, s.localAddress = some name → name = e.localName := by
    rw [getLocalAddress]
    cases s.localAddress with
    | some name => simp
    | none => simp [Files.getsockname, opened]
  have there : (s.getRemoteAddress files true).1 =
        (match e.peerName with
        | none => Reported.unknown s.family
        | some name => .address s.family name) ↔
      ∀ name, s.remoteAddress = some name → e.peerName = some name := by
    rw [getRemoteAddress]
    cases s.remoteAddress with
    | some name => cases e.peerName <;> simp [eq_comm]
    | none => cases peer : e.peerName <;> simp [Files.getpeername, opened, peer]
  rw [here, there]
  exact ⟨fun ⟨local', remote⟩ => ⟨local', remote⟩, fun agrees => ⟨agrees.1, agrees.2⟩⟩

/-! ### The getters -/

/-- A getter changes nothing, or keeps the name it was told. -/
theorem getLocalAddress_cases (files : Files α) (answers : Bool) (s : Socket α) :
    (s.getLocalAddress files answers).2 = s ∨
      ∃ name, files.getsockname s.sock answers = some name ∧ s.localAddress = none ∧
        (s.getLocalAddress files answers).2 = { s with localAddress := some name } := by
  unfold getLocalAddress
  split
  next => exact Or.inl rfl
  next absent =>
    split
    next => exact Or.inl rfl
    next name found => exact Or.inr ⟨name, found, absent, rfl⟩

theorem getRemoteAddress_cases (files : Files α) (answers : Bool) (s : Socket α) :
    (s.getRemoteAddress files answers).2 = s ∨
      ∃ name, files.getpeername s.sock answers = some name ∧ s.remoteAddress = none ∧
        (s.getRemoteAddress files answers).2 = { s with remoteAddress := some name } := by
  unfold getRemoteAddress
  split
  next => exact Or.inl rfl
  next absent =>
    split
    next => exact Or.inl rfl
    next name found => exact Or.inr ⟨name, found, absent, rfl⟩

@[simp] theorem getLocalAddress_sock (files : Files α) (answers : Bool) (s : Socket α) :
    (s.getLocalAddress files answers).2.sock = s.sock := by
  rcases getLocalAddress_cases files answers s with same | ⟨name, -, -, same⟩ <;> rw [same]

@[simp] theorem getLocalAddress_isConnected (files : Files α) (answers : Bool) (s : Socket α) :
    (s.getLocalAddress files answers).2.isConnected = s.isConnected := by
  rcases getLocalAddress_cases files answers s with same | ⟨name, -, -, same⟩ <;> rw [same]

@[simp] theorem getRemoteAddress_sock (files : Files α) (answers : Bool) (s : Socket α) :
    (s.getRemoteAddress files answers).2.sock = s.sock := by
  rcases getRemoteAddress_cases files answers s with same | ⟨name, -, -, same⟩ <;> rw [same]

@[simp] theorem getRemoteAddress_isConnected (files : Files α) (answers : Bool) (s : Socket α) :
    (s.getRemoteAddress files answers).2.isConnected = s.isConnected := by
  rcases getRemoteAddress_cases files answers s with same | ⟨name, -, -, same⟩ <;> rw [same]

/-- What a getter keeps is right for the descriptor. -/
theorem getLocalAddress_agrees (opened : files s.sock = some e) (answers : Bool) :
    Agrees (s.getLocalAddress files answers).2 e ↔ Agrees s e := by
  rcases getLocalAddress_cases files answers s with same | ⟨name, found, absent, same⟩ <;> rw [same]
  have told : name = e.localName := by
    rw [Files.getsockname, opened] at found
    cases answers with
    | false => cases found
    | true => exact (Option.some.inj found).symm
  constructor
  · rintro ⟨-, remote⟩
    refine ⟨fun kept here => ?_, remote⟩
    rw [absent] at here
    cases here
  · rintro ⟨-, remote⟩
    refine ⟨fun kept here => ?_, remote⟩
    cases here
    exact told

theorem getRemoteAddress_agrees (opened : files s.sock = some e) (answers : Bool) :
    Agrees (s.getRemoteAddress files answers).2 e ↔ Agrees s e := by
  rcases getRemoteAddress_cases files answers s with same | ⟨name, found, absent, same⟩ <;>
    rw [same]
  have told : e.peerName = some name := by
    rw [Files.getpeername, opened] at found
    cases answers with
    | false => cases found
    | true => exact found
  constructor
  · rintro ⟨here, -⟩
    refine ⟨here, fun kept there => ?_⟩
    rw [absent] at there
    cases there
  · rintro ⟨here, -⟩
    refine ⟨here, fun kept there => ?_⟩
    cases there
    exact told

theorem getters_agree (opened : files s.sock = some e) (answersRemote answersLocal : Bool) :
    Agrees ((s.getRemoteAddress files answersRemote).2.getLocalAddress files answersLocal).2 e ↔
      Agrees s e := by
  have same : files (s.getRemoteAddress files answersRemote).2.sock = some e := by
    rw [getRemoteAddress_sock]
    exact opened
  rw [getLocalAddress_agrees same, getRemoteAddress_agrees opened]

theorem getLocalAddress_sound (files : Files α) (answers : Bool) (s : Socket α) :
    Sound files (s.getLocalAddress files answers).2 ↔ Sound files s := by
  rw [sound_iff, sound_iff, getLocalAddress_sock]
  exact exists_congr fun e => and_congr_right fun opened => getLocalAddress_agrees opened answers

theorem getRemoteAddress_sound (files : Files α) (answers : Bool) (s : Socket α) :
    Sound files (s.getRemoteAddress files answers).2 ↔ Sound files s := by
  rw [sound_iff, sound_iff, getRemoteAddress_sock]
  exact exists_congr fun e => and_congr_right fun opened => getRemoteAddress_agrees opened answers

theorem agrees_congr {t : Socket α} (here : t.localAddress = s.localAddress)
    (there : t.remoteAddress = s.remoteAddress) : Agrees t e ↔ Agrees s e := by
  constructor
  · rintro ⟨a, b⟩
    exact ⟨here ▸ a, there ▸ b⟩
  · rintro ⟨a, b⟩
    exact ⟨here.symm ▸ a, there.symm ▸ b⟩

/-- A socket that keeps nothing agrees with every descriptor. -/
theorem agrees_of_none (here : s.localAddress = none) (there : s.remoteAddress = none) :
    Agrees s e := by
  constructor
  · intro name kept
    rw [here] at kept
    cases kept
  · intro name kept
    rw [there] at kept
    cases kept

end Socket

namespace Sockets

open Socket

variable {w w' : Sockets α} {id : Nat} {s : Socket α} {fd : Int} {file : Option (Endpoint α)}

/-- Every connected socket reports the names of its descriptor. -/
def Holds (w : Sockets α) : Prop :=
  ∀ id s, w.objects id = some s → s.isConnected = true → Sound w.files s

/-- -1 is not a descriptor. -/
def Proper (w : Sockets α) : Prop := w.files (-1) = none

/-- The other connected sockets with this descriptor. -/
def Others (w : Sockets α) (id : Nat) (fd : Int) (p : Socket α → Prop) : Prop :=
  ∀ other t, other ≠ id → w.objects other = some t → t.isConnected = true → t.sock = fd → p t

/-- What the sockets with the descriptor keep agrees with the names that the call gives it, and no
other connected socket has the descriptor that it closes. -/
def Ok (w : Sockets α) : SocketCall α → Prop
  | .CreateUDP _ _ made => made ≠ none
  | .bind id family _ bound _ => ∀ s, w.objects id = some s → family = s.family →
    ∀ name, bound = some name →
      (s.isConnected = true → ∀ kept, s.localAddress = some kept → kept = name) ∧
        w.Others id s.sock fun t => ∀ kept, t.localAddress = some kept → kept = name
  | .connect id family made connected _ _ => ∀ s, w.objects id = some s → family = s.family →
    (s.sock = -1 → made ≠ none) →
      match connected with
      | some e => Agrees s e ∧ w.Others id s.sock fun t => Agrees t e
      | none => w.Others id s.sock fun _ => False
  | .close id => ∀ s, w.objects id = some s → w.Others id s.sock fun _ => False
  | .init id sock ctx _ _ => ∀ s, w.objects id = some s → usable ctx = true →
    ∃ e, w.files sock = some e ∧ Agrees s e
  | .create .. | .accept .. | .getRemoteAddress .. | .getLocalAddress .. => True

theorem after_self (w : Sockets α) (id : Nat) (files : Files α) (s : Socket α) :
    (w.after id files s).objects id = some s := Function.update_self ..

theorem after_other (w : Sockets α) (files : Files α) (s : Socket α) {other : Nat}
    (different : other ≠ id) : (w.after id files s).objects other = w.objects other :=
  Function.update_of_ne different ..

theorem after_after (w : Sockets α) (id : Nat) (files files' : Files α) (s s' : Socket α) :
    (w.after id files s).after id files' s' = w.after id files' s' := by
  rw [after, after, after, Function.update_idem]

theorem Holds.agrees {e : Endpoint α} (holds : Holds w) (here : w.objects id = some s)
    (connected : s.isConnected = true) (opened : w.files s.sock = some e) : Agrees s e := by
  obtain ⟨e', opened', agrees⟩ := sound_iff.mp (holds id s here connected)
  cases opened.symm.trans opened'
  exact agrees

/-- A call that changes one socket and one descriptor. -/
theorem holds_after_iff (holds : Holds w) :
    Holds (w.after id (Function.update w.files fd file) s) ↔
      (s.isConnected = true → Sound (Function.update w.files fd file) s) ∧
        w.Others id fd fun t => ∃ e, file = some e ∧ Agrees t e := by
  constructor
  · intro every
    refine ⟨every id s (after_self ..), fun other t different here connected same => ?_⟩
    have sound := every other t ((after_other w _ s different).trans here) connected
    rw [sound_iff] at sound
    subst same
    have found : (w.after id (Function.update w.files t.sock file) s).files t.sock = file :=
      Function.update_self ..
    rw [found] at sound
    exact sound
  · rintro ⟨self, others⟩ other t here connected
    -- the socket of the call, one with the same descriptor, and any other
    by_cases same : other = id
    · subst same
      rw [after_self] at here
      cases here
      exact self connected
    · rw [after_other w _ s same] at here
      rw [sound_iff]
      by_cases touched : t.sock = fd
      · have found : (w.after id (Function.update w.files fd file) s).files t.sock = file := by
          rw [touched]
          exact Function.update_self ..
        rw [found]
        exact others other t same here connected touched
      · have kept : (w.after id (Function.update w.files fd file) s).files t.sock =
            w.files t.sock := Function.update_of_ne touched ..
        rw [kept, ← sound_iff]
        exact holds other t here connected

/-- A call that changes one socket only. -/
theorem holds_same_iff (holds : Holds w) :
    Holds (w.after id w.files s) ↔ (s.isConnected = true → Sound w.files s) := by
  have unchanged : Function.update w.files (-1) (w.files (-1)) = w.files :=
    Function.update_eq_self ..
  have both := @holds_after_iff α w id s (-1) (w.files (-1)) holds
  rw [unchanged] at both
  rw [both]
  refine and_iff_left_of_imp fun _ other t _ here connected same => ?_
  rw [← same]
  exact sound_iff.mp (holds other t here connected)

/-- No connected socket has a descriptor that is not open. -/
theorem others_of_closed (holds : Holds w) (closed : w.files fd = none) (p : Socket α → Prop) :
    w.Others id fd p := by
  intro other t _ here connected same
  obtain ⟨e, opened, -⟩ := sound_iff.mp (holds other t here connected)
  rw [same, closed] at opened
  cases opened

/-! ### The descriptor to work on -/

theorem others_after (files : Files α) (s : Socket α) (p : Socket α → Prop) :
    (w.after id files s).Others id fd p ↔ w.Others id fd p := by
  unfold Others
  refine forall₃_congr fun other t different => ?_
  rw [after_other w files s different]

/-- `if(!isVaild()) newSock();` leaves the socket as it is but for the descriptor. -/
structure Acquired (w : Sockets α) (id : Nat) (s : Socket α) (made : Option (Int × α))
    (files : Files α) (s₁ : Socket α) : Prop where
  proper : Proper (w.after id files s₁)
  holds : Holds (w.after id files s₁)
  family : s₁.family = s.family
  connected : s₁.isConnected = s.isConnected
  localAddress : s₁.localAddress = s.localAddress
  remoteAddress : s₁.remoteAddress = s.remoteAddress
  vaild : s₁.sock = -1 ↔ s.sock = -1 ∧ made = none
  others : s₁.sock ≠ -1 → ∀ p, w.Others id s₁.sock p ↔ w.Others id s.sock p

theorem after_same (here : w.objects id = some s) : w.after id w.files s = w := by
  rw [after, ← here, Function.update_eq_self]

theorem disconnected (proper : Proper w) (holds : Holds w) (here : w.objects id = some s)
    (closed : s.sock = -1) : s.isConnected = false := by
  cases connected : s.isConnected with
  | false => rfl
  | true =>
    obtain ⟨e, opened, -⟩ := sound_iff.mp (holds id s here connected)
    rw [closed, proper] at opened
    cases opened

theorem acquired_of {made : Option (Int × α)} {files : Files α} {s₁ : Socket α}
    (proper : Proper w) (holds : Holds w) (here : w.objects id = some s)
    (ran : (if s.isVaild then some (w.files, s) else s.newSock w.files made) =
      some (files, s₁)) : Acquired w id s made files s₁ := by
  have same : w.after id w.files s = w := after_same here
  by_cases closed : s.sock = -1
  · -- the socket is not connected, so it needs no names; a new descriptor is nobody's
    have deaf : s.isVaild = false := by rw [isVaild, closed]; rfl
    rw [deaf, if_neg nofun, newSock] at ran
    cases made with
    | none =>
      cases ran
      have kept : ({ s with sock := -1 } : Socket α) = s := by rw [← closed]
      rw [kept]
      exact ⟨same.symm ▸ proper, same.symm ▸ holds, rfl, rfl, rfl, rfl, by simp [closed],
        fun _ _ => Iff.rfl⟩
    | some new =>
      obtain ⟨fd, name⟩ := new
      rw [Files.socket] at ran
      split at ran
      next fresh =>
        cases ran
        obtain ⟨nonneg, free⟩ := fresh
        have other : (-1 : Int) ≠ fd := by omega
        refine ⟨(Function.update_of_ne other ..).trans proper, ?_, rfl, rfl, rfl, rfl, ?_,
          fun _ p => ?_⟩
        · apply (holds_after_iff holds).mpr
          refine ⟨fun connected => ?_, others_of_closed holds free _⟩
          have off : s.isConnected = false := disconnected proper holds here closed
          exact absurd (off.symm.trans connected) nofun
        · exact iff_of_false (Ne.symm other) fun both => nomatch both.2
        · rw [closed]
          exact iff_of_true (others_of_closed holds free p) (others_of_closed holds proper p)
      next => cases ran
  · have open' : s.isVaild = true := by rw [isVaild, bne_iff_ne]; exact closed
    rw [open', if_pos rfl] at ran
    cases ran
    exact ⟨same.symm ▸ proper, same.symm ▸ holds, rfl, rfl, rfl, rfl, by simp [closed],
        fun _ _ => Iff.rfl⟩

/-! ### What each call does -/

/-- The descriptor of a socket gets names. -/
theorem holds_names_iff {e e' : Endpoint α} {s' : Socket α} (proper : Proper w) (holds : Holds w)
    (opened : w.files s.sock = some e) (sock : s'.sock = s.sock)
    (agrees : Agrees s' e' ↔ Agrees s e') :
    Proper (w.after id (Function.update w.files s.sock (some e')) s') ∧
      (Holds (w.after id (Function.update w.files s.sock (some e')) s') ↔
        (s'.isConnected = true → Agrees s e') ∧ w.Others id s.sock fun t => Agrees t e') := by
  have other : (-1 : Int) ≠ s.sock := by
    intro same
    rw [← same, proper] at opened
    cases opened
  refine ⟨(Function.update_of_ne other ..).trans proper, ?_⟩
  have sound : Sound (Function.update w.files s.sock (some e')) s' ↔ Agrees s e' := by
    rw [sound_iff, sock, Function.update_self, ← agrees]
    simp only [Option.some.injEq, exists_eq_left']
  rw [holds_after_iff holds, sound]
  simp only [Option.some.injEq, exists_eq_left']

/-- A new name of its own leaves the peer as it is. -/
theorem agrees_rename {e : Endpoint α} {t : Socket α} {name : α} (agrees : Agrees t e) :
    Agrees t { e with localName := name } ↔ ∀ kept, t.localAddress = some kept → kept = name :=
  ⟨Agrees.localAddress, fun here => ⟨here, agrees.remoteAddress⟩⟩

theorem bind_exact {family : Int} {made : Option (Int × α)} {bound : Option α} {answers : Bool}
    {done : Bool} {files : Files α} {s' : Socket α} (proper : Proper w) (holds : Holds w)
    (here : w.objects id = some s)
    (ran : s.bind w.files family made bound answers = some (done, files, s')) :
    Proper (w.after id files s') ∧ (Holds (w.after id files s') ↔
      Ok w (.bind id family made bound answers)) := by
  unfold Socket.bind at ran
  -- the socket first gets a descriptor if it has none; what follows is about that state
  obtain ⟨⟨files₁, s₁⟩, acquired, ran⟩ := Option.bind_eq_some_iff.mp ran
  have ready := acquired_of proper holds here acquired
  have unique : ∀ t, w.objects id = some t → t = s := fun t same =>
    Option.some.inj (same.symm.trans here)
  dsimp only at ran
  split at ran
  next deaf =>
    -- `socket` failed
    cases ran
    refine ⟨ready.proper, iff_of_true ready.holds fun t same _ _ _ => ?_⟩
    cases unique t same
    have closed : s.sock = -1 := (ready.vaild.mp (by simpa [isVaild] using deaf)).1
    refine ⟨fun connected => ?_, ?_⟩
    · exact absurd ((disconnected proper holds here closed).symm.trans connected) nofun
    · rw [closed]
      exact others_of_closed holds proper _
  next open' =>
    split at ran
    next mismatch =>
      cases ran
      refine ⟨ready.proper, iff_of_true ready.holds fun t same matched _ _ => ?_⟩
      cases unique t same
      exact absurd (matched.trans ready.family.symm) mismatch
    next matched =>
      obtain ⟨⟨done', files₂⟩, bind, ran⟩ := Option.bind_eq_some_iff.mp ran
      cases bound with
      | none =>
        cases bind
        cases ran
        exact ⟨ready.proper, iff_of_true ready.holds fun _ _ _ _ => nofun⟩
      | some name =>
        rw [Files.bind] at bind
        split at bind
        next => cases bind
        next e opened =>
          cases bind
          cases ran
          have names := @holds_names_iff α (w.after id files₁ s₁) id s₁ e
            { e with localName := name } _ ready.proper ready.holds opened
            (getLocalAddress_sock (Function.update files₁ s₁.sock _) answers s₁)
            (getLocalAddress_agrees (Function.update_self ..) answers)
          rw [after_after] at names
          refine ⟨names.1, names.2.trans ?_⟩
          have valid : s₁.sock ≠ -1 := by simpa [isVaild] using open'
          -- the peer stays the same, so a connected socket only has to have kept the new name
          have self : s₁.isConnected = true → (Agrees s₁ { e with localName := name } ↔
              ∀ kept, s.localAddress = some kept → kept = name) := by
            intro connected
            rw [agrees_rename (ready.holds.agrees (after_self ..) connected opened),
              ready.localAddress]
          have rest : (w.after id files₁ s₁).Others id s₁.sock
                (fun t => Agrees t { e with localName := name }) ↔
              w.Others id s.sock fun t => ∀ kept, t.localAddress = some kept → kept = name := by
            rw [← ready.others valid, others_after]
            refine forall₃_congr fun other t different => ?_
            refine forall₃_congr fun here connected same => ?_
            have there : (w.after id files₁ s₁).objects other = some t :=
              (after_other w files₁ s₁ different).trans here
            exact agrees_rename (ready.holds.agrees there connected (same ▸ opened))
          rw [getLocalAddress_isConnected, rest, ready.connected]
          constructor
          · rintro ⟨mine, theirs⟩ t same _ n ⟨⟩
            cases unique t same
            exact ⟨fun connected => (self (ready.connected.trans connected)).mp (mine connected),
              theirs⟩
          · intro ok
            have asked : family = s.family := (Decidable.not_not.mp matched).trans ready.family
            obtain ⟨mine, theirs⟩ := ok s here asked name rfl
            exact ⟨fun connected => (self (ready.connected.trans connected)).mpr (mine connected),
              theirs⟩

theorem close_exact (proper : Proper w) (holds : Holds w) (here : w.objects id = some s) :
    Proper (w.after id (s.close w.files).2.1 (s.close w.files).2.2) ∧
      (Holds (w.after id (s.close w.files).2.1 (s.close w.files).2.2) ↔
        w.Others id s.sock fun _ => False) := by
  by_cases closed : s.sock = -1
  · have off := disconnected proper holds here closed
    have unchanged : s.close w.files = (true, w.files, s) := by
      rw [Socket.close, off, closed]
      rfl
    rw [unchanged, after_same here, closed]
    exact ⟨proper, iff_of_true holds (others_of_closed holds proper _)⟩
  · have shut : s.close w.files = (false, Function.update w.files s.sock none,
        { s with isConnected := false, sock := -1 }) := by
      have still : ¬(!s.isConnected && s.sock == -1) = true := by simp [closed]
      rw [Socket.close, if_neg still]
      exact if_pos closed
    rw [shut]
    refine ⟨(Function.update_of_ne (Ne.symm closed) ..).trans proper, ?_⟩
    rw [holds_after_iff holds]
    constructor
    · rintro ⟨-, others⟩ other t different here connected same
      obtain ⟨e, absurd, -⟩ := others other t different here connected same
      cases absurd
    · intro others
      exact ⟨nofun, fun other t different here connected same =>
        (others other t different here connected same).elim⟩

theorem connect_exact {family : Int} {made : Option (Int × α)} {connected : Option (Endpoint α)}
    {answersRemote answersLocal done : Bool} {files : Files α} {s' : Socket α} (proper : Proper w)
    (holds : Holds w) (here : w.objects id = some s)
    (ran : s.connect w.files family made connected answersRemote answersLocal =
      some (done, files, s')) :
    Proper (w.after id files s') ∧ (Holds (w.after id files s') ↔
      Ok w (.connect id family made connected answersRemote answersLocal)) := by
  unfold Socket.connect at ran
  -- the socket first gets a descriptor if it has none; what follows is about that state
  obtain ⟨⟨files₁, s₁⟩, acquired, ran⟩ := Option.bind_eq_some_iff.mp ran
  have ready := acquired_of proper holds here acquired
  have unique : ∀ t, w.objects id = some t → t = s := fun t same =>
    Option.some.inj (same.symm.trans here)
  dsimp only at ran
  split at ran
  next deaf =>
    -- `socket` failed
    cases ran
    refine ⟨ready.proper, iff_of_true ready.holds fun t same _ fresh => ?_⟩
    cases unique t same
    obtain ⟨closed, failed⟩ := ready.vaild.mp (by simpa [isVaild] using deaf)
    exact absurd failed (fresh closed)
  next open' =>
    have valid : s₁.sock ≠ -1 := by simpa [isVaild] using open'
    split at ran
    next mismatch =>
      cases ran
      refine ⟨ready.proper, iff_of_true ready.holds fun t same matched _ => ?_⟩
      cases unique t same
      exact absurd (matched.trans ready.family.symm) mismatch
    next matched =>
      have asked : family = s.family := (Decidable.not_not.mp matched).trans ready.family
      have fresh : s.sock = -1 → made ≠ none := fun closed failed =>
        valid (ready.vaild.mpr ⟨closed, failed⟩)
      obtain ⟨⟨done', files₂⟩, connect, ran⟩ := Option.bind_eq_some_iff.mp ran
      cases connected with
      | none =>
        -- a connect that fails closes the descriptor
        cases connect
        cases ran
        have closing := close_exact ready.proper ready.holds (after_self ..)
        rw [after_after] at closing
        refine ⟨closing.1, closing.2.trans ?_⟩
        rw [others_after, ready.others valid]
        constructor
        · intro others t same _ _
          cases unique t same
          exact others
        · intro ok
          exact ok s here asked fresh
      | some e =>
        rw [Files.connect] at connect
        split at connect
        next => cases connect
        next e₀ opened =>
          cases connect
          cases ran
          have now : Function.update files₁ s₁.sock (some e) s₁.sock = some e :=
            Function.update_self ..
          have asks := @getters_agree α _ { s₁ with isConnected := true } e now answersRemote
            answersLocal
          have names := @holds_names_iff α (w.after id files₁ s₁) id
            { s₁ with isConnected := true } e₀ e _ ready.proper ready.holds opened
            ((getLocalAddress_sock ..).trans (getRemoteAddress_sock ..)) asks
          rw [after_after] at names
          refine ⟨names.1, names.2.trans ?_⟩
          -- the getters keep only what is right, so what counts is what was kept before
          have self : Agrees { s₁ with isConnected := true } e ↔ Agrees s e :=
            agrees_congr ready.localAddress ready.remoteAddress
          rw [getLocalAddress_isConnected, getRemoteAddress_isConnected, self, others_after,
            ready.others valid]
          constructor
          · rintro ⟨mine, theirs⟩ t same _ _
            cases unique t same
            exact ⟨mine rfl, theirs⟩
          · intro ok
            obtain ⟨mine, theirs⟩ := ok s here asked fresh
            exact ⟨fun _ => mine, theirs⟩

theorem init_sound {sock : Int} {ctx : Option FdCtx} {answersLocal answersRemote : Bool}
    {files : Files α} (allowed : usable ctx = true) :
    (s.init files sock ctx answersLocal answersRemote).2.isConnected = true ∧
      (Sound files (s.init files sock ctx answersLocal answersRemote).2 ↔
        ∃ e, files sock = some e ∧ Agrees s e) := by
  rw [Socket.init, if_pos allowed]
  dsimp only
  rw [getRemoteAddress_isConnected, getLocalAddress_isConnected, getRemoteAddress_sound,
    getLocalAddress_sound, sound_iff]
  exact ⟨rfl, exists_congr fun e => and_congr_right fun _ => agrees_congr rfl rfl⟩

theorem init_exact {sock : Int} {ctx : Option FdCtx} {answersLocal answersRemote : Bool}
    (holds : Holds w) (here : w.objects id = some s) :
    Holds (w.after id w.files (s.init w.files sock ctx answersLocal answersRemote).2) ↔
      Ok w (.init id sock ctx answersLocal answersRemote) := by
  cases allowed : usable ctx with
  | false =>
    have unchanged : (s.init w.files sock ctx answersLocal answersRemote).2 = s := by
      rw [Socket.init, allowed]
      rfl
    rw [unchanged, after_same here]
    refine iff_of_true holds fun _ _ opened => ?_
    rw [allowed] at opened
    cases opened
  | true =>
    obtain ⟨connected, sound⟩ := @init_sound α s sock ctx answersLocal answersRemote w.files allowed
    rw [holds_same_iff holds, sound]
    constructor
    · intro found t same _
      cases same.symm.trans here
      exact found connected
    · intro ok _
      exact ok s here allowed

/-- A new descriptor is nobody's. -/
theorem holds_fresh (holds : Holds w) (free : w.files fd = none) (e : Endpoint α) :
    Holds ⟨w.objects, Function.update w.files fd (some e)⟩ := by
  intro other t here connected
  obtain ⟨e', opened, agrees⟩ := sound_iff.mp (holds other t here connected)
  have different : t.sock ≠ fd := by
    intro same
    rw [same, free] at opened
    cases opened
  exact sound_iff.mpr ⟨e', (Function.update_of_ne different ..).trans opened, agrees⟩

theorem accept_exact {new : Nat} {made : Option (Int × Endpoint α)} {ctx : Option FdCtx}
    {answersLocal answersRemote : Bool} {sock : Option (Socket α)} {files : Files α}
    (proper : Proper w) (holds : Holds w) (free : w.objects new = none)
    (ran : s.accept w.files made ctx answersLocal answersRemote = some (sock, files)) :
    Proper ⟨Function.update w.objects new sock, files⟩ ∧
      Holds ⟨Function.update w.objects new sock, files⟩ := by
  have unchanged : Function.update w.objects new none = w.objects := by
    rw [← free, Function.update_eq_self]
  unfold Socket.accept at ran
  obtain ⟨⟨newsock, files₁⟩, accepted, ran⟩ := Option.bind_eq_some_iff.mp ran
  cases made with
  | none =>
    cases accepted
    cases ran
    rw [unchanged]
    exact ⟨proper, holds⟩
  | some pair =>
    obtain ⟨fd, e⟩ := pair
    rw [Files.accept] at accepted
    split at accepted
    next fresh =>
      cases accepted
      obtain ⟨-, nonneg, closed⟩ := fresh
      have other : (-1 : Int) ≠ newsock := by omega
      have proper' : Function.update w.files newsock (some e) (-1) = none :=
        (Function.update_of_ne other ..).trans proper
      dsimp only at ran
      rw [if_neg (Ne.symm other)] at ran
      cases ran
      refine ⟨proper', ?_⟩
      cases allowed : usable ctx with
      | false =>
        have refused : ((Socket.new s.family s.type s.protocol : Socket α).init
            (Function.update w.files newsock (some e)) newsock ctx answersLocal
            answersRemote).1 = false := by
          rw [Socket.init, allowed]
          rfl
        rw [refused, if_neg nofun, unchanged]
        exact holds_fresh holds closed e
      | true =>
        have done : ((Socket.new s.family s.type s.protocol : Socket α).init
            (Function.update w.files newsock (some e)) newsock ctx answersLocal
            answersRemote).1 = true := by
          rw [Socket.init, allowed]
          rfl
        rw [done, if_pos rfl]
        apply (@holds_after_iff α w new _ newsock (some e) holds).mpr
        refine ⟨fun _ => ?_, others_of_closed holds closed _⟩
        exact (init_sound allowed).2.mpr
          ⟨e, Function.update_self .., agrees_of_none rfl rfl⟩
    next => cases accepted

theorem CreateUDP_exact {family : Int} {made : Option (Int × α)} {files : Files α} {s' : Socket α}
    (proper : Proper w) (holds : Holds w)
    (ran : Socket.CreateUDP w.files family made = some (files, s')) :
    Proper (w.after id files s') ∧ (Holds (w.after id files s') ↔
      Ok w (.CreateUDP id family made)) := by
  unfold Socket.CreateUDP at ran
  obtain ⟨⟨files₁, s₁⟩, acquired, ran⟩ := Option.bind_eq_some_iff.mp ran
  cases ran
  obtain ⟨⟨sock, files₂⟩, socket, same⟩ := Option.bind_eq_some_iff.mp acquired
  cases same
  cases made with
  | none =>
    cases socket
    refine ⟨proper, iff_of_false (fun every => ?_) fun ok => ok rfl⟩
    -- the socket counts as connected, without a descriptor
    obtain ⟨e, opened, -⟩ := sound_iff.mp (every id _ (after_self ..) rfl)
    have closed : w.files (-1) = some e := opened
    rw [proper] at closed
    cases closed
  | some new =>
    obtain ⟨fd, name⟩ := new
    rw [Files.socket] at socket
    split at socket
    next fresh =>
      cases socket
      obtain ⟨nonneg, free⟩ := fresh
      have other : (-1 : Int) ≠ sock := by omega
      refine ⟨(Function.update_of_ne other ..).trans proper, iff_of_true ?_ nofun⟩
      apply (holds_after_iff holds).mpr
      refine ⟨fun _ => sound_iff.mpr ⟨_, Function.update_self .., agrees_of_none rfl rfl⟩, ?_⟩
      exact others_of_closed holds free _
    next => cases socket

/-- A step from sockets that report the names of their descriptors leads to such sockets if and
only if it meets the condition. -/
theorem step_exact {call : SocketCall α} (proper : Proper w) (holds : Holds w)
    (stepped : step w call = some w') : Proper w' ∧ (Holds w' ↔ Ok w call) := by
  cases call with
  | create id family type =>
    rw [step] at stepped
    split at stepped
    next =>
      cases stepped
      exact ⟨proper, iff_of_true ((holds_same_iff holds).mpr nofun) trivial⟩
    next => cases stepped
  | CreateUDP id family made =>
    rw [step] at stepped
    split at stepped
    next => cases stepped
    next =>
      obtain ⟨⟨files, s'⟩, ran, stepped⟩ := Option.bind_eq_some_iff.mp stepped
      cases stepped
      exact CreateUDP_exact proper holds ran
  | bind id family made bound answers =>
    obtain ⟨s, here, stepped⟩ := Option.bind_eq_some_iff.mp stepped
    obtain ⟨⟨done, files, s'⟩, ran, stepped⟩ := Option.bind_eq_some_iff.mp stepped
    cases stepped
    exact bind_exact proper holds here ran
  | connect id family made connected answersRemote answersLocal =>
    obtain ⟨s, here, stepped⟩ := Option.bind_eq_some_iff.mp stepped
    obtain ⟨⟨done, files, s'⟩, ran, stepped⟩ := Option.bind_eq_some_iff.mp stepped
    cases stepped
    exact connect_exact proper holds here ran
  | close id =>
    obtain ⟨s, here, stepped⟩ := Option.bind_eq_some_iff.mp stepped
    cases stepped
    obtain ⟨proper', exact⟩ := close_exact proper holds here
    refine ⟨proper', exact.trans ⟨fun others t same => ?_, fun ok => ok s here⟩⟩
    cases same.symm.trans here
    exact others
  | accept id new made ctx answersLocal answersRemote =>
    obtain ⟨s, here, stepped⟩ := Option.bind_eq_some_iff.mp stepped
    dsimp only at stepped
    split at stepped
    next => cases stepped
    next free =>
      obtain ⟨⟨made, files⟩, ran, stepped⟩ := Option.bind_eq_some_iff.mp stepped
      cases stepped
      have exact := accept_exact proper holds (Decidable.not_not.mp free) ran
      exact ⟨exact.1, iff_of_true exact.2 trivial⟩
  | init id sock ctx answersLocal answersRemote =>
    obtain ⟨s, here, stepped⟩ := Option.bind_eq_some_iff.mp stepped
    cases stepped
    exact ⟨proper, init_exact holds here⟩
  | getRemoteAddress id answers =>
    obtain ⟨s, here, stepped⟩ := Option.bind_eq_some_iff.mp stepped
    cases stepped
    refine ⟨proper, iff_of_true ((holds_same_iff holds).mpr ?_) trivial⟩
    rw [getRemoteAddress_isConnected, getRemoteAddress_sound]
    exact holds id s here
  | getLocalAddress id answers =>
    obtain ⟨s, here, stepped⟩ := Option.bind_eq_some_iff.mp stepped
    cases stepped
    refine ⟨proper, iff_of_true ((holds_same_iff holds).mpr ?_) trivial⟩
    rw [getLocalAddress_isConnected, getLocalAddress_sound]
    exact holds id s here

/-- In a run from no sockets at all, every connected socket has an open descriptor and reports its
names throughout, if and only if every call meets the condition. -/
theorem holds_iff_along {calls : List (SocketCall α)} {final : Sockets α}
    (ran : exec step start calls = some final) :
    (∀ n w, exec step start (calls.take n) = some w → Holds w) ↔ Along step Ok start calls := by
  have proper : Proper (start : Sockets α) := rfl
  have holds : Holds (start : Sockets α) := fun _ _ => nofun
  exact along_iff_prefixes (fun _ _ _ => step_exact) proper holds ran

/-- A server accepts a connection and a client connects, asks again and closes. -/
theorem holds_iff_along_client_server :
    let calls : List (SocketCall Nat) :=
      [.create 0 2 1, .bind 0 2 (some (3, 0)) (some 80) true,
        .accept 0 1 (some (4, ⟨80, some 5001⟩)) (some ⟨true, true, true, false, false, 4, 0, 0⟩)
          true true,
        .create 2 2 1, .connect 2 2 (some (5, 0)) (some ⟨5002, some 90⟩) false true,
        .getRemoteAddress 2 true, .close 2]
    (∀ n w, exec step start (calls.take n) = some w → Holds w) ↔ Along step Ok start calls :=
  holds_iff_along rfl

/-- A socket that is closed and connected again reports the peer it had first. -/
theorem reconnect_reports_first_peer :
    ∃ w s, exec step (start : Sockets Nat)
        [.create 0 2 1, .connect 0 2 (some (3, 0)) (some ⟨5001, some 80⟩) true true, .close 0,
          .connect 0 2 (some (4, 0)) (some ⟨5002, some 90⟩) true true] = some w ∧
      w.objects 0 = some s ∧ s.isConnected = true ∧
      w.files s.sock = some ⟨5002, some 90⟩ ∧
      (s.getRemoteAddress w.files true).1 = .address 2 80 ∧
      (s.getLocalAddress w.files true).1 = .address 2 5001 ∧ ¬Holds w := by
  refine ⟨_, _, rfl, rfl, rfl, rfl, rfl, rfl, fun holds => ?_⟩
  obtain ⟨e, opened, agrees⟩ := sound_iff.mp (holds 0 _ rfl rfl)
  cases opened
  cases agrees.remoteAddress 80 rfl

end Sockets

end Dwframe
