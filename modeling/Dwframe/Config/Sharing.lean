import Dwframe.Config.Model
import Dwframe.Lib.Run

/-!
# Who shares a variable

`LookUp` of a name that is registered with the same type is meant to return the registered
variable, so that all modules that look a name up share one variable, the one that
`LodeFromYaml` updates. It logs that the name exists and goes on: a second variable takes the name
and the first holders are left with one that no reload reaches. Everything the registry promises
holds in the runs without such a call.
-/
namespace Dwframe

open Lib Lib.Run

variable {τ V κ : Type}

namespace Config

variable {s s' : Config τ V κ} {name : String} {a : Nat} {var : ConfigVar τ V κ}

/-- The names of the registry are names of different variables. -/
structure Sound (s : Config τ V κ) : Prop where
  bound : ∀ {name a}, s.datas name = some a → a < s.heap.length
  injective : ∀ {name other a}, s.datas name = some a → s.datas other = some a → name = other

theorem Sound.empty : Sound (Config.empty : Config τ V κ) where
  bound := by
    rintro name a ⟨⟩
  injective := by
    rintro name other a ⟨⟩

/-- A call that changes variables only. -/
theorem Sound.kept (sound : Sound s) (datas : s'.datas = s.datas)
    (length : s'.heap.length = s.heap.length) : Sound s' where
  bound found := by
    rw [datas] at found
    rw [length]
    exact sound.bound found
  injective found found' := by
    rw [datas] at found found'
    exact sound.injective found found'

theorem Sound.register (types : ConfigTypes τ V κ) (sound : Sound s) (name : String)
    (default_value : V) (description : String) :
    Sound (s.register types name default_value description).2 := by
  constructor
  · intro other a found
    simp only [Config.register, List.length_append, List.length_singleton] at found ⊢
    by_cases same : other = name
    · rw [same, Function.update_self] at found
      cases found
      omega
    · rw [Function.update_of_ne same] at found
      exact Nat.lt_succ_of_lt (sound.bound found)
  · intro first second a found found'
    simp only [Config.register] at found found'
    -- the new variable is none of the registered ones
    have fresh {other : String} (registered : s.datas other = some s.heap.length) : False :=
      Nat.lt_irrefl _ (sound.bound registered)
    by_cases same : first = name <;> by_cases same' : second = name
    · rw [same, same']
    · rw [same, Function.update_self] at found
      rw [Function.update_of_ne same'] at found'
      cases found
      exact (fresh found').elim
    · rw [Function.update_of_ne same] at found
      rw [same', Function.update_self] at found'
      cases found'
      exact (fresh found).elim
    · rw [Function.update_of_ne same] at found
      rw [Function.update_of_ne same'] at found'
      exact sound.injective found found'

/-! ### Loading -/

section Load

variable (types : ConfigTypes τ V κ)

theorem loadMember_kept (s : Config τ V κ) (member : String × YamlNode) :
    (s.loadMember types member).datas = s.datas ∧
      (s.loadMember types member).heap.length = s.heap.length := by
  unfold loadMember
  split
  next => exact ⟨rfl, rfl⟩
  next =>
    split
    next => exact ⟨rfl, rfl⟩
    next =>
      split
      next => exact ⟨rfl, rfl⟩
      next => exact ⟨rfl, List.length_set⟩

/-- The texts that a document gives for a name, in order. -/
def mentions (name : String) (members : List (String × YamlNode)) : List String :=
  members.filterMap fun member =>
    if !member.1.isEmpty && toLower member.1 = name then some (member.2.text types) else none

/-- A variable after `fromString` of some texts. -/
def reloaded (var : ConfigVar τ V κ) (texts : List String) : ConfigVar τ V κ :=
  texts.foldl (fun var text => (var.fromString types text).1) var

theorem mentions_cons (name : String) (member : String × YamlNode)
    (rest : List (String × YamlNode)) :
    mentions types name (member :: rest) =
      (if !member.1.isEmpty && toLower member.1 = name then [member.2.text types] else []) ++
        mentions types name rest := by
  rw [mentions, List.filterMap_cons]
  split <;> simp_all [mentions]

/-- The variable of a name takes the members with this name and no others. -/
theorem loadMember_at (sound : Sound s) (found : s.datas name = some a)
    (here : s.heap[a]? = some var) (member : String × YamlNode) :
    (s.loadMember types member).heap[a]? =
      some (if !member.1.isEmpty && toLower member.1 = name then
        (var.fromString types (member.2.text types)).1 else var) := by
  have inside : a < s.heap.length := sound.bound found
  cases empty : member.1.isEmpty with
  | true => simp [loadMember, empty, here]
  | false =>
    by_cases mentioned : toLower member.1 = name
    · simp only [loadMember, empty, Bool.false_eq_true, if_false, mentioned, lookupBase, found,
        here, store, List.getElem?_set_self inside, Bool.not_false, Bool.true_and, decide_true,
        if_true]
    · simp only [loadMember, empty, lookupBase, mentioned]
      cases registered : s.datas (toLower member.1) with
      | none => simp [here]
      | some b =>
        have differs : b ≠ a := by
          rintro rfl
          exact mentioned (sound.injective registered found)
        cases there : s.heap[b]? with
        | none => simp [there, here]
        | some other => simp [there, store, List.getElem?_set_ne differs, here]

theorem load_at (sound : Sound s) (found : s.datas name = some a) (here : s.heap[a]? = some var)
    (members : List (String × YamlNode)) :
    (members.foldl (loadMember types) s).heap[a]? =
      some (reloaded types var (mentions types name members)) := by
  induction members generalizing s var with
  | nil => exact here
  | cons member rest ih =>
    obtain ⟨datas, length⟩ := s.loadMember_kept types member
    rw [List.foldl_cons, ih (sound.kept datas length) (by rw [datas, found])
      (loadMember_at types sound found here member), mentions_cons, reloaded, reloaded,
      List.foldl_append]
    split <;> rfl

theorem load_kept (s : Config τ V κ) (members : List (String × YamlNode)) :
    (members.foldl (loadMember types) s).datas = s.datas ∧
      (members.foldl (loadMember types) s).heap.length = s.heap.length := by
  induction members generalizing s with
  | nil => exact ⟨rfl, rfl⟩
  | cons member rest ih =>
    obtain ⟨datas, length⟩ := s.loadMember_kept types member
    obtain ⟨datas', length'⟩ := ih (s.loadMember types member)
    exact ⟨datas'.trans datas, length'.trans length⟩

end Load

end Config

/-! ### Runs -/

/-- The configuration with the pointers that `LookUp` has returned, under the names they were
looked up by. -/
structure ConfigUse (τ V κ : Type) where
  config : Config τ V κ
  holders : List (String × Nat)

namespace ConfigUse

inductive Call (V κ : Type) where
  | lookUp (name : String) (default_value : V) (description : String)
  | setValue (a : Nat) (v : V)
  | addListener (a : Nat) (cb : κ)
  | lodeFromYaml (root : YamlNode)

def start : ConfigUse τ V κ := ⟨.empty, []⟩

/-- All holders of a name have the same variable. -/
def Shared (s : ConfigUse τ V κ) : Prop :=
  ∀ name a b, (name, a) ∈ s.holders → (name, b) ∈ s.holders → a = b

/-- Every holder has the registered variable of its name. -/
structure Holding (s : ConfigUse τ V κ) : Prop where
  sound : s.config.Sound
  held : ∀ {name a}, (name, a) ∈ s.holders → s.config.datas name = some a

theorem Holding.shared {s : ConfigUse τ V κ} (holding : Holding s) : Shared s := by
  intro name a b first second
  exact Option.some.inj ((holding.held first).symm.trans (holding.held second))

theorem Holding.start : Holding (start : ConfigUse τ V κ) := ⟨.empty, by rintro name a ⟨⟩⟩

variable [DecidableEq τ] (types : ConfigTypes τ V κ)

/-- A call through a pointer is possible for a variable of the type it is about. A call that
throws leaves the registry and the holders as they are. -/
def step (s : ConfigUse τ V κ) : Call V κ → Option (ConfigUse τ V κ)
  | .lookUp name default_value description =>
    match s.config.lookUp types name default_value description with
    | .error _ => some s
    | .ok (a, config) => some ⟨config, (name, a) :: s.holders⟩
  | .setValue a v =>
    match s.config.heap[a]? with
    | none => none
    | some var =>
      if var.type = types.typeOf v then
        let (var, called, _) := var.setValue types v
        some { s with config := s.config.store a var called }
      else none
  | .addListener a cb =>
    match s.config.heap[a]? with
    | none => none
    | some var =>
      let key := s.config.funId var.type + 1
      some { s with config := { s.config with
        heap := s.config.heap.set a (var.addListener key cb)
        funId := Function.update s.config.funId var.type key } }
  | .lodeFromYaml root =>
    match s.config.lodeFromYaml types root with
    | .error _ => some s
    | .ok config => some { s with config := config }

/-- What `LookUp` and `LodeFromYaml` promise: a name that is registered with the type asked for
gives the registered variable, with its value and its listeners; one of another type gives an
exception and changes nothing; and a document reaches the variable of every holder. -/
def Meets (s : ConfigUse τ V κ) : Call V κ → Prop
  | .lookUp name default_value description =>
    ∀ a var, s.config.datas name = some a → s.config.heap[a]? = some var →
      (var.type = types.typeOf default_value →
        ∃ config, s.config.lookUp types name default_value description = .ok (a, config) ∧
          config.heap[a]? = some var) ∧
      (var.type ≠ types.typeOf default_value →
        s.config.lookUp types name default_value description = .error name ∧
          s.step types (.lookUp name default_value description) = some s)
  | .lodeFromYaml root =>
    match listALLMember "" root with
    | .error _ => s.step types (.lodeFromYaml root) = some s
    | .ok members =>
      ∃ s', s.step types (.lodeFromYaml root) = some s' ∧
        ∀ name a var, (name, a) ∈ s.holders → s.config.heap[a]? = some var →
          s'.config.heap[a]? =
            some (Config.reloaded types var (Config.mentions types name members))
  | _ => True

/-- `LookUp` of a name that is registered with the same type. -/
def Repeats (s : ConfigUse τ V κ) : Call V κ → Prop
  | .lookUp name default_value _ =>
    ∃ a var, s.config.datas name = some a ∧ s.config.heap[a]? = some var ∧
      var.type = types.typeOf default_value
  | _ => False

variable {types} {s s' : ConfigUse τ V κ}

/-- Without a repetition, `LookUp` returns a new variable for a name that was not registered. -/
theorem lookUp_ok {name description : String} {default_value : V} {a : Nat}
    {config : Config τ V κ}
    (new : ¬s.Repeats types (.lookUp name default_value description))
    (returned : s.config.lookUp types name default_value description = .ok (a, config)) :
    s.config.datas name = none ∧
      (a, config) = s.config.register types name default_value description := by
  unfold Config.lookUp at returned
  split at returned
  next b registered =>
    split at returned
    next var there =>
      split at returned
      next same => exact absurd ⟨b, var, registered, there, same⟩ new
      next => cases returned
    next => cases returned
  next free =>
    split at returned
    next => cases returned
    next => exact ⟨free, (Except.ok.inj returned).symm⟩

omit [DecidableEq τ] in
/-- The first holder of a name joins the holders of others. -/
private theorem Holding.registered {name description : String} {default_value : V}
    (holding : Holding s) (free : s.config.datas name = none) :
    let made := s.config.register types name default_value description
    Holding ⟨made.2, (name, made.1) :: s.holders⟩ := by
  intro made
  refine ⟨holding.sound.register types name default_value description, ?_⟩
  intro other b member
  rcases List.mem_cons.mp member with same | before
  · cases same
    exact Function.update_self ..
  · -- an earlier holder of the name would have it registered
    have differs : other ≠ name := by
      rintro rfl
      rw [holding.held before] at free
      cases free
    exact (Function.update_of_ne differs _ _).trans (holding.held before)

theorem step_holding {call : Call V κ} (holding : Holding s) (new : ¬s.Repeats types call)
    (ran : s.step types call = some s') : Holding s' := by
  cases call with
  | lookUp name default_value description =>
    simp only [step] at ran
    split at ran
    next =>
      cases ran
      exact holding
    next a config returned =>
      cases ran
      obtain ⟨free, made⟩ := lookUp_ok new returned
      cases made
      exact holding.registered free
  | setValue a v =>
    simp only [step] at ran
    split at ran
    next => cases ran
    next =>
      split at ran
      next =>
        cases ran
        exact ⟨holding.sound.kept rfl List.length_set, holding.held⟩
      next => cases ran
  | addListener a cb =>
    simp only [step] at ran
    split at ran
    next => cases ran
    next =>
      cases ran
      exact ⟨holding.sound.kept rfl List.length_set, holding.held⟩
  | lodeFromYaml root =>
    simp only [step, Config.lodeFromYaml] at ran
    cases listed : listALLMember "" root with
    | error path =>
      rw [listed] at ran
      cases ran
      exact holding
    | ok members =>
      rw [listed] at ran
      cases ran
      obtain ⟨datas, length⟩ := Config.load_kept types s.config members
      refine ⟨holding.sound.kept datas length, fun member => ?_⟩
      exact (congrFun datas _).trans (holding.held member)

/-- A repetition is answered with a variable that is not the registered one. -/
theorem not_meets_of_repeats {call : Call V κ} (repeats : s.Repeats types call) :
    ¬s.Meets types call := by
  cases call with
  | lookUp name default_value description =>
    obtain ⟨a, var, registered, there, same⟩ := repeats
    intro meets
    obtain ⟨config, returned, -⟩ := (meets a var registered there).1 same
    have inside : a < s.config.heap.length := (List.getElem?_eq_some_iff.mp there).1
    simp only [Config.lookUp, registered, there, if_pos same] at returned
    split at returned
    next => cases returned
    next =>
      cases returned
      exact Nat.lt_irrefl _ inside
  | _ => cases repeats

theorem meets_of_new {call : Call V κ} (holding : Holding s) (new : ¬s.Repeats types call) :
    s.Meets types call := by
  cases call with
  | lookUp name default_value description =>
    intro a var registered there
    refine ⟨fun same => absurd ⟨a, var, registered, there, same⟩ new, fun differs => ?_⟩
    have thrown : s.config.lookUp types name default_value description = .error name := by
      simp only [Config.lookUp, registered, there, if_neg differs]
    exact ⟨thrown, by rw [step, thrown]⟩
  | lodeFromYaml root =>
    simp only [Meets, step, Config.lodeFromYaml]
    cases listed : listALLMember "" root with
    | error path => rfl
    | ok members =>
      refine ⟨_, rfl, fun name a var member there => ?_⟩
      exact Config.load_at types holding.sound (holding.held member) there members
  | _ => trivial

/-- In every run of `LookUp`, `setValue`, `addListener` and `LodeFromYaml` calls the holders of a
name share one variable and every call does what it promises, exactly when no `LookUp` asks for a
name that is registered with the same type. -/
theorem shares_iff (types : ConfigTypes τ V κ) (calls : List (Call V κ)) :
    (Along (step types) (fun s call => Shared s ∧ s.Meets types call) start calls ∧
      ∀ final, exec (step types) start calls = some final → Shared final) ↔
    Along (step types) (fun s call => ¬s.Repeats types call) start calls := by
  constructor
  · rintro ⟨conforms, -⟩
    apply along_of_invariant (fun _ => True) _ _ trivial conforms
    · intro s call _ meets repeats
      exact not_meets_of_repeats repeats meets.2
    · intro s call s' _ _ _
      trivial
  · intro new
    have preserved (s : ConfigUse τ V κ) (call : Call V κ) (s' : ConfigUse τ V κ)
        (holding : Holding s) (new : ¬s.Repeats types call) (ran : s.step types call = some s') :
        Holding s' := step_holding holding new ran
    constructor
    · apply along_of_invariant Holding _ preserved .start new
      intro s call holding new
      exact ⟨holding.shared, meets_of_new holding new⟩
    · intro final ran
      exact (exec_invariant Holding preserved .start new ran).shared

/-- A configuration of `std::string` variables. -/
def stringTypes : ConfigTypes Unit String Unit where
  typeOf _ := ()
  same := (· == ·)
  fromStr _ text := some text
  fromStr_type _ := rfl
  returns _ _ _ := true
  emit _ := ""

/-- A name is looked up twice; a document then changes the second variable and not the first. -/
theorem second_lookUp_splits :
    ∃ s : ConfigUse Unit String Unit,
      exec (step stringTypes) start [.lookUp "system.name" "old" "",
        .lookUp "system.name" "old" "",
        .lodeFromYaml (.map [("system", .map [("name", .scalar "new")])])] = some s ∧
      s.holders = [("system.name", 1), ("system.name", 0)] ∧
      s.config.heap.map ConfigVar.val = ["old", "new"] ∧ ¬Shared s := by
  have outcome : (exec (step stringTypes) start [.lookUp "system.name" "old" "",
      .lookUp "system.name" "old" "",
      .lodeFromYaml (.map [("system", .map [("name", .scalar "new")])])]).map
        (fun s => (s.holders, s.config.heap.map ConfigVar.val)) =
      some ([("system.name", 1), ("system.name", 0)], ["old", "new"]) := by decide +kernel
  obtain ⟨s, reached, seen⟩ := Option.map_eq_some_iff.mp outcome
  obtain ⟨holders, values⟩ := Prod.mk.inj seen
  refine ⟨s, reached, holders, values, fun shared => ?_⟩
  have same := shared "system.name" 1 0 (by simp [holders]) (by simp [holders])
  cases same

end ConfigUse

end Dwframe
