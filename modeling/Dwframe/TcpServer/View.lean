import Dwframe.TcpServer.Bind

/-!
# What a server sees of its sockets

Whether an object is there, and whether it hears. Each operation of the host has a lemma that says
what it does to this view; it does nothing to other objects as long as no two of them have the
same descriptor, which every operation keeps.
-/
namespace Dwframe

/-! ### The sockets of the host -/

theorem Socket.close_sock {α : Type} (files : Files α) (s : Socket α) :
    (s.close files).2.2.sock = -1 := by
  unfold Socket.close
  split
  next idle =>
    rw [Bool.and_eq_true, beq_iff_eq] at idle
    exact idle.2
  next =>
    by_cases closed : s.sock = -1
    · simp [closed]
    · simp [closed]

namespace Host

variable {α : Type} {h h' : Host α}

/-- The descriptor of an object is closed; `o` is what becomes of the object. -/
def shut (h : Host α) (id : Nat) (s : Socket α) (o : Option (Socket α)) : Host α :=
  { h with
    objects := Function.update h.objects id o
    files := (s.close h.files).2.1
    listening := if s.sock = -1 then h.listening else Function.update h.listening s.sock false }

/-- `cancelAll` and `close` of an object. -/
def close (h : Host α) (id : Nat) : Host α :=
  match h.objects id with
  | none => h
  | some s => h.shut id s (some (s.close h.files).2.2)

/-- Whether an object is there, and hears. -/
def view (h : Host α) (id : Nat) : Option Bool :=
  (h.objects id).map fun s => s.isVaild && h.listening s.sock

/-- Every object has an open descriptor of its own, or none. -/
structure Sound (h : Host α) : Prop where
  opened : ∀ id s, h.objects id = some s → s.sock ≠ -1 → (h.files s.sock).isSome
  distinct : ∀ id id' s s', h.objects id = some s → h.objects id' = some s' → s.sock ≠ -1 →
    s.sock = s'.sock → id = id'

theorem view_congr {id : Nat} (same : h'.objects id = h.objects id)
    (heard : ∀ s, h.objects id = some s → s.sock ≠ -1 → h'.listening s.sock = h.listening s.sock) :
    h'.view id = h.view id := by
  rw [view, view, same]
  cases here : h.objects id with
  | none => rfl
  | some s =>
    rw [Option.map_some, Option.map_some]
    by_cases closed : s.sock = -1
    · simp [Socket.isVaild, closed]
    · rw [heard s here closed]

theorem view_eq_none {id : Nat} : h.view id = none ↔ h.objects id = none := by
  rw [view, Option.map_eq_none_iff]

section Shut

variable {id : Nat} {s : Socket α} {o : Option (Socket α)}

theorem shut_objects : (h.shut id s o).objects = Function.update h.objects id o := rfl

theorem shut_files : (h.shut id s o).files =
    if s.sock = -1 then h.files else Function.update h.files s.sock none := files_close ..

theorem shut_listening : (h.shut id s o).listening =
    if s.sock = -1 then h.listening else Function.update h.listening s.sock false := rfl

theorem shut_sound (sound : h.Sound) (here : h.objects id = some s)
    (closed : ∀ s', o = some s' → s'.sock = -1) : (h.shut id s o).Sound := by
  -- the objects that have a descriptor are others
  have other : ∀ id' s', (h.shut id s o).objects id' = some s' → s'.sock ≠ -1 →
      id' ≠ id ∧ h.objects id' = some s' := by
    intro id' s' here' opened
    by_cases same : id' = id
    · subst same
      rw [shut_objects, Function.update_self] at here'
      exact absurd (closed s' here') opened
    · rw [shut_objects, Function.update_of_ne same] at here'
      exact ⟨same, here'⟩
  constructor
  · intro id' s' here' opened
    obtain ⟨differ, here'⟩ := other id' s' here' opened
    have elsewhere : s'.sock ≠ s.sock :=
      fun same => differ (sound.distinct id' id s' s here' here opened same)
    rw [shut_files]
    split
    next => exact sound.opened id' s' here' opened
    next =>
      rw [Function.update_of_ne elsewhere]
      exact sound.opened id' s' here' opened
  · intro id' id'' s' s'' here' here'' opened same
    obtain ⟨-, here'⟩ := other id' s' here' opened
    obtain ⟨-, here''⟩ := other id'' s'' here'' (same ▸ opened)
    exact sound.distinct id' id'' s' s'' here' here'' opened same

theorem shut_view (sound : h.Sound) (here : h.objects id = some s)
    (closed : ∀ s', o = some s' → s'.sock = -1) :
    (h.shut id s o).view = Function.update h.view id (o.map fun _ => false) := by
  funext other
  by_cases same : other = id
  · subst same
    rw [Function.update_self, view, shut_objects, Function.update_self]
    cases o with
    | none => rfl
    | some s' => simp [Socket.isVaild, closed s' rfl]
  · rw [Function.update_of_ne same]
    refine view_congr (by rw [shut_objects, Function.update_of_ne same]) fun s' here' opened => ?_
    have elsewhere : s'.sock ≠ s.sock :=
      fun alike => same (sound.distinct other id s' s here' here opened alike)
    rw [shut_listening]
    split
    next => rfl
    next => rw [Function.update_of_ne elsewhere]

end Shut

theorem destroy_sound (sound : h.Sound) (id : Nat) :
    (h.destroy id).Sound ∧ (h.destroy id).view = Function.update h.view id none := by
  cases here : h.objects id with
  | none =>
    have same : h.destroy id = h := by rw [destroy, here]
    rw [same]
    exact ⟨sound, (Function.update_eq_self_iff.mpr (view_eq_none.mpr here).symm).symm⟩
  | some s =>
    have shuts : h.destroy id = h.shut id s none := by rw [destroy, here, shut]
    rw [shuts]
    exact ⟨shut_sound sound here (by simp), shut_view sound here (by simp)⟩

@[simp] theorem destroy_shared (h : Host α) (id : Nat) : (h.destroy id).shared = h.shared := by
  unfold destroy
  split <;> rfl

@[simp] theorem close_shared (h : Host α) (id : Nat) : (h.close id).shared = h.shared := by
  unfold close
  split <;> rfl

theorem closeAll_shared (h : Host α) (socks : List Nat) :
    (socks.foldl close h).shared = h.shared := by
  induction socks generalizing h with
  | nil => rfl
  | cons first rest ih => rw [List.foldl_cons, ih, close_shared]

theorem close_sound (sound : h.Sound) (id : Nat) :
    (h.close id).Sound ∧
      (h.close id).view = Function.update h.view id ((h.view id).map fun _ => false) := by
  cases here : h.objects id with
  | none =>
    have same : h.close id = h := by rw [close, here]
    rw [same, view_eq_none.mpr here]
    exact ⟨sound, (Function.update_eq_self_iff.mpr (view_eq_none.mpr here).symm).symm⟩
  | some s =>
    have closed : ∀ s', some (s.close h.files).2.2 = some s' → s'.sock = -1 := by
      rintro s' ⟨⟩
      exact Socket.close_sock ..
    have shuts : h.close id = h.shut id s (some (s.close h.files).2.2) := by rw [close, here]
    have seen : h.view id = some (s.isVaild && h.listening s.sock) := by
      rw [view, here, Option.map_some]
    rw [shuts, seen]
    exact ⟨shut_sound sound here closed, shut_view sound here closed⟩

/-- `close` of each of the sockets. -/
theorem closeAll_sound (sound : h.Sound) (socks : List Nat) :
    (socks.foldl close h).Sound ∧ ∀ id, (socks.foldl close h).view id =
      if id ∈ socks then (h.view id).map fun _ => false else h.view id := by
  induction socks generalizing h with
  | nil => exact ⟨sound, fun id => (if_neg List.not_mem_nil).symm⟩
  | cons first rest ih =>
    obtain ⟨sound', view'⟩ := close_sound sound first
    obtain ⟨sound'', view''⟩ := ih sound'
    refine ⟨sound'', fun id => ?_⟩
    rw [List.foldl_cons, view'', view']
    by_cases same : id = first
    · subst same
      simp
    · rw [Function.update_of_ne same]
      simp [same]

/-- `m_socks.clear()`. -/
theorem clear_sound (sound : h.Sound) (socks : List Nat) :
    (h.clear socks).Sound ∧ ∀ id, (h.clear socks).view id =
      if id ∈ socks ∧ h.shared id = false then none else h.view id := by
  induction socks generalizing h with
  | nil => exact ⟨sound, fun id => (if_neg (by simp)).symm⟩
  | cons first rest ih =>
    rw [clear, List.foldl_cons]
    cases kept : h.shared first with
    | true =>
      obtain ⟨sound', view'⟩ := ih sound
      rw [if_pos rfl]
      refine ⟨sound', fun id => (view' id).trans (if_congr ?_ rfl rfl)⟩
      rw [List.mem_cons]
      constructor
      · exact fun ⟨later, gone⟩ => ⟨.inr later, gone⟩
      · rintro ⟨rfl | later, gone⟩
        · cases kept.symm.trans gone
        · exact ⟨later, gone⟩
    | false =>
      obtain ⟨sound', view'⟩ := destroy_sound sound first
      obtain ⟨sound'', view''⟩ := ih sound'
      rw [if_neg (by decide)]
      refine ⟨sound'', fun id => (view'' id).trans ?_⟩
      rw [view', destroy_shared]
      by_cases same : id = first
      · subst same
        simp [kept]
      · rw [Function.update_of_ne same]
        simp [same]

/-- A new object, with a new descriptor or none. -/
theorem after_sound {id : Nat} {s : Socket α} {files : Files α} (sound : h.Sound)
    (free : h.objects id = none) (made : s.sock = -1 ∧ files = h.files ∨
      h.files s.sock = none ∧ ∃ e, files = Function.update h.files s.sock (some e)) :
    ({ h with toSockets := h.after id files s } : Host α).Sound := by
  have old : ∀ {other : Nat} {s' : Socket α}, other ≠ id →
      Function.update h.objects id (some s) other = some s' → h.objects other = some s' := by
    intro other s' differ here
    rwa [Function.update_of_ne differ] at here
  have new : ∀ {s' : Socket α}, Function.update h.objects id (some s) id = some s' → s' = s := by
    intro s' here
    rw [Function.update_self] at here
    exact (Option.some.inj here).symm
  -- no other object has the descriptor
  have apart : ∀ other s', h.objects other = some s' → s'.sock ≠ -1 → s'.sock ≠ s.sock := by
    intro other s' here opened same
    rcases made with ⟨closed, -⟩ | ⟨unused, -⟩
    · exact opened (same.trans closed)
    · have there := sound.opened other s' here opened
      rw [same, unused] at there
      cases there
  constructor
  · intro other s' here opened
    by_cases same : other = id
    · subst same
      rw [new here] at opened ⊢
      rcases made with ⟨closed, -⟩ | ⟨-, e, rfl⟩
      · exact absurd closed opened
      · change (Function.update h.files s.sock (some e) s.sock).isSome
        rw [Function.update_self]
        rfl
    · have there := sound.opened other s' (old same here) opened
      rcases made with ⟨-, rfl⟩ | ⟨-, e, rfl⟩
      · exact there
      · change (Function.update h.files s.sock (some e) s'.sock).isSome
        rw [Function.update_of_ne (apart other s' (old same here) opened)]
        exact there
  · intro other other' s' s'' here here' opened same
    by_cases first : other = id <;> by_cases second : other' = id
    · exact first.trans second.symm
    · subst first
      rw [new here] at opened same
      exact absurd same.symm (apart other' s'' (old second here') (same ▸ opened))
    · subst second
      rw [new here'] at same
      exact absurd same (apart other s' (old first here) opened)
    · exact sound.distinct other other' s' s'' (old first here) (old second here') opened same

theorem listen_sound {id : Nat} {heard done : Bool} (sound : h.Sound)
    (ran : h.listen id heard = some (done, h')) :
    done = false ∧ h' = h ∨ done = true ∧ h'.Sound ∧
      h'.view = Function.update h.view id (some true) ∧ h'.shared = h.shared := by
  obtain ⟨s, here, ran⟩ := Option.bind_eq_some_iff.mp ran
  split at ran
  next hears =>
    split at ran
    next =>
      cases ran
      rw [Socket.listen, Bool.and_eq_true] at hears
      have opened : s.sock ≠ -1 := bne_iff_ne.mp hears.1
      refine .inr ⟨rfl, ⟨sound.opened, sound.distinct⟩, ?_, rfl⟩
      funext other
      by_cases same : other = id
      · subst same
        rw [Function.update_self, view, here, Option.map_some, hears.1]
        simp
      · rw [Function.update_of_ne same]
        refine view_congr rfl fun s' here' opened' => ?_
        have elsewhere : s'.sock ≠ s.sock :=
          fun alike => same (sound.distinct other id s' s here' here opened' alike)
        exact Function.update_of_ne elsewhere ..
    next => cases ran
  next =>
    cases ran
    exact .inl ⟨rfl, rfl⟩

end Host

/-! ### The sockets of `bind` -/

namespace TcpServer

variable {α : Type} {h h' : Host α}

/-- A turn of the loop of `bind` adds a socket that hears, or nothing. -/
theorem bindAddr_sound {t : BindTurn α} {done : Bool} (sound : h.Sound)
    (ran : bindAddr h t = some (done, h')) :
    h'.Sound ∧ h'.view = (if done then Function.update h.view t.id (some true) else h.view) ∧
      h'.shared = h.shared := by
  unfold bindAddr at ran
  split at ran
  next => cases ran
  next free =>
    rw [Option.isSome_iff_ne_none, Decidable.not_not] at free
    obtain ⟨⟨done', files, s⟩, bound, ran⟩ := Option.bind_eq_some_iff.mp ran
    dsimp only at ran
    have unseen : h.view t.id = none := Host.view_eq_none.mpr free
    have made : s.sock = -1 ∧ files = h.files ∨
        h.files s.sock = none ∧ ∃ e, files = Function.update h.files s.sock (some e) := by
      rcases Socket.bind_new bound with ⟨-, -, same, closed⟩ | ⟨fd, name, -, -, unused, rfl, made⟩
      · exact .inl ⟨closed, same⟩
      · rcases made with ⟨-, -, same⟩ | ⟨name', -, -, same⟩
        · exact .inr ⟨unused, _, same⟩
        · exact .inr ⟨unused, _, same⟩
    have added : ({ h with toSockets := h.after t.id files s } : Host α).Sound :=
      Host.after_sound sound free made
    have others : ∀ other, other ≠ t.id →
        ({ h with toSockets := h.after t.id files s } : Host α).view other = h.view other := by
      intro other differ
      exact Host.view_congr (Function.update_of_ne differ ..) fun _ _ _ => rfl
    -- the object is destroyed again
    have dropped : ∀ {final}, some (false, ({ h with toSockets := h.after t.id files s } :
          Host α).destroy t.id) = some (done, final) → final.Sound ∧
        final.view = (if done then Function.update h.view t.id (some true) else h.view) ∧
        final.shared = h.shared := by
      rintro final ⟨⟩
      obtain ⟨sound', view'⟩ := Host.destroy_sound added t.id
      refine ⟨sound', ?_, Host.destroy_shared ..⟩
      rw [view', if_neg (by decide)]
      funext other
      by_cases same : other = t.id
      · subst same
        rw [Function.update_self, unseen]
      · rw [Function.update_of_ne same, others other same]
    split at ran
    next => exact dropped ran
    next =>
      obtain ⟨⟨done'', h''⟩, listened, ran⟩ := Option.bind_eq_some_iff.mp ran
      dsimp only at ran
      rcases Host.listen_sound added listened with ⟨rfl, rfl⟩ | ⟨rfl, sound', view', kept⟩
      · exact dropped ran
      · rw [if_neg (by decide)] at ran
        cases ran
        refine ⟨sound', ?_, kept⟩
        rw [view', if_pos rfl]
        funext other
        by_cases same : other = t.id
        · rw [same, Function.update_self, Function.update_self]
        · rw [Function.update_of_ne same, Function.update_of_ne same, others other same]

/-- The sockets that are kept are new and hear; nothing else changes. -/
theorem bindLoop_sound {turns : List (BindTurn α)} {socks socks' : List Nat}
    {fails fails' : List (Addr α)} (sound : h.Sound)
    (ran : bindLoop socks fails h turns = some (socks', fails', h')) :
    h'.Sound ∧ h'.shared = h.shared ∧
      ∀ id, h'.view id =
        if id ∈ (turns.filter BindTurn.Succeeds).map BindTurn.id then some true else h.view id := by
  induction turns generalizing socks fails h with
  | nil =>
    cases ran
    exact ⟨sound, rfl, fun id => (if_neg (by simp)).symm⟩
  | cons t rest ih =>
    obtain ⟨mid, turn, ran⟩ := bindLoop_cons ran
    obtain ⟨sound', view', kept⟩ := bindAddr_sound sound turn
    obtain ⟨sound'', kept', view''⟩ := ih sound' ran
    refine ⟨sound'', kept'.trans kept, fun id => (view'' id).trans ?_⟩
    cases succeeds : t.Succeeds with
    | false =>
      rw [view', succeeds, if_neg Bool.false_ne_true, List.filter_cons_of_neg (by simp [succeeds])]
    | true =>
      rw [view', succeeds, if_pos rfl, List.filter_cons_of_pos succeeds, List.map_cons]
      by_cases same : id = t.id
      · subst same
        rw [Function.update_self, ite_self, if_pos List.mem_cons_self]
      · rw [Function.update_of_ne same]
        exact if_congr (by rw [List.mem_cons, or_iff_right same]) rfl rfl

/-- An address fails, or the vector names one before. -/
def Fails (call : BindCall α) : Prop :=
  call.fails ≠ [] ∨ ∃ t ∈ call.turns, t.Succeeds = false

instance (call : BindCall α) : Decidable (Fails call) :=
  decidable_of_iff (call.fails.isEmpty = false ∨ ∃ t ∈ call.turns, t.Succeeds = false)
    (or_congr_left (by rw [Ne, ← List.isEmpty_iff, Bool.not_eq_true]))

theorem bind_fails {server : TcpServer} {call : BindCall α} {r : BindResult α} (sound : h.Sound)
    (ran : server.bind h call = some r) (fails : Fails call) :
    r.host.Sound ∧ r.server.socks = [] ∧
      ∀ id, h.shared id → h.view id ≠ none → r.host.view id = h.view id := by
  obtain ⟨⟨socks, failed, mid⟩, looped, ran⟩ := Option.bind_eq_some_iff.mp ran
  obtain ⟨-, pushed⟩ := bindLoop_lists looped
  obtain ⟨sound', kept, view'⟩ := bindLoop_sound sound looped
  have named : failed ≠ [] := by
    rw [pushed, Ne, List.append_eq_nil_iff, not_and_or]
    refine fails.imp id ?_
    rintro ⟨t, member, failing⟩ empty
    rw [List.map_eq_nil_iff, List.filter_eq_nil_iff] at empty
    exact empty t member (by rw [failing]; rfl)
  dsimp only at ran
  rw [if_pos (by cases failed with | nil => exact absurd rfl named | cons => rfl)] at ran
  cases ran
  obtain ⟨sound'', view''⟩ := Host.clear_sound sound' socks
  refine ⟨sound'', rfl, fun id shared seen => ?_⟩
  rw [view'', if_neg (by rw [kept, shared]; simp), view']
  -- an object that was there before the call is none of the new ones
  refine if_neg fun new => ?_
  obtain ⟨t, member, rfl⟩ := List.mem_map.mp new
  obtain ⟨member, succeeds⟩ := List.mem_filter.mp member
  exact seen (Host.view_eq_none.mpr ((bindLoop_listens looped).2.1 t member succeeds).1)

theorem bind_binds {server : TcpServer} {call : BindCall α} {r : BindResult α} (sound : h.Sound)
    (ran : server.bind h call = some r) (binds : ¬Fails call) :
    r.host.Sound ∧ r.server.socks = server.socks ++ call.turns.map BindTurn.id ∧
      (call.turns.map BindTurn.id).Nodup ∧
      (∀ id ∈ call.turns.map BindTurn.id, h.view id = none) ∧
      ∀ id, r.host.view id =
        if id ∈ call.turns.map BindTurn.id then some true else h.view id := by
  rw [Fails, not_or, Decidable.not_not] at binds
  obtain ⟨empty, succeed⟩ := binds
  have each : ∀ t ∈ call.turns, t.Succeeds = true := by
    intro t member
    exact Bool.not_eq_false _ |>.mp fun failing => succeed ⟨t, member, failing⟩
  obtain ⟨⟨socks, failed, mid⟩, looped, ran⟩ := Option.bind_eq_some_iff.mp ran
  obtain ⟨rfl, pushed⟩ := bindLoop_lists looped
  obtain ⟨sound', -, view'⟩ := bindLoop_sound sound looped
  obtain ⟨-, listens, nodup⟩ := bindLoop_listens looped
  have all : call.turns.filter BindTurn.Succeeds = call.turns := List.filter_eq_self.mpr each
  have none_fails : call.turns.filter (fun t => !t.Succeeds) = [] := by
    rw [List.filter_eq_nil_iff]
    intro t member
    rw [each t member]
    decide
  rw [empty, none_fails] at pushed
  rw [all] at view' nodup ran
  subst pushed
  cases ran
  refine ⟨sound', rfl, nodup, fun id new => ?_, view'⟩
  obtain ⟨t, member, rfl⟩ := List.mem_map.mp new
  exact Host.view_eq_none.mpr (listens t member (each t member)).1

end TcpServer

end Dwframe
