import Mathlib.Logic.Function.Basic

/-!
# Configuration variables

`Config` keeps a map from names to variables; `LookUp` hands out pointers to them, which modules
keep, and `LodeFromYaml` reaches a variable through the map only. A pointer is the number of the
variable on the heap.

The C++ types that variables are made of, with their conversions, and the listeners are
parameters: `V` holds the values of all types, and `typeOf` is the type a value has. A
`std::string` is a `String` whose characters stand for its bytes.
-/
namespace Dwframe

/-- A YAML node. The key of a map entry is its `Scalar()`. -/
inductive YamlNode where
  | null
  | scalar (text : String)
  | sequence (items : List YamlNode)
  | map (entries : List (String × YamlNode))

/-- What the configuration is used with. -/
structure ConfigTypes (τ V κ : Type) where
  typeOf : V → τ
  /-- `operator==` of the type. -/
  same : V → V → Bool
  /-- `LexicalCast<std::string, T>`; `none` is an exception. -/
  fromStr : τ → String → Option V
  fromStr_type : ∀ {type text v}, fromStr type text = some v → typeOf v = type
  /-- Whether a listener returns, called with the old and the new value, or throws. -/
  returns : κ → V → V → Bool
  /-- `ss << node`. -/
  emit : YamlNode → String

/-- `ConfigVar<T>` with the type `T` it was made for. -/
structure ConfigVar (τ V κ : Type) where
  name : String
  description : String
  type : τ
  val : V
  /-- `m_cbs`, ordered by key. -/
  cbs : List (Nat × κ)

variable {τ V κ : Type}

namespace ConfigVar

/-- The loop over `m_cbs`: the listeners called, and whether all of them returned. -/
def notify (returns : κ → V → V → Bool) (old new : V) : List (Nat × κ) → List Nat × Bool
  | [] => ([], true)
  | (key, cb) :: rest =>
    if returns cb old new then
      let (called, returned) := notify returns old new rest
      (key :: called, returned)
    else ([key], false)

/-- `setValue`: the variable afterwards, the listeners called, and whether the call returned. An
exception of a listener leaves the old value. -/
def setValue (types : ConfigTypes τ V κ) (var : ConfigVar τ V κ) (v : V) :
    ConfigVar τ V κ × List Nat × Bool :=
  if types.same var.val v then (var, [], true)
  else
    let (called, returned) := notify types.returns var.val v var.cbs
    (if returned then { var with val := v } else var, called, returned)

/-- `fromString` catches what the conversion or a listener throws. -/
def fromString (types : ConfigTypes τ V κ) (var : ConfigVar τ V κ) (text : String) :
    ConfigVar τ V κ × List Nat :=
  match types.fromStr var.type text with
  | none => (var, [])
  | some v =>
    let (var, called, _) := var.setValue types v
    (var, called)

/-- `m_cbs[++s_fun_id] = cb`; keys only grow. -/
def addListener (var : ConfigVar τ V κ) (key : Nat) (cb : κ) : ConfigVar τ V κ :=
  { var with cbs := var.cbs ++ [(key, cb)] }

end ConfigVar

/-- The characters of a name. The digit 9 is not among them. -/
def configAlphabet : String := "abcdefghijklmnopqrstuvwxyz._012345678"

/-- `find_first_not_of(…) == npos`. -/
def validName (name : String) : Bool := name.toList.all fun c => c ∈ configAlphabet.toList

def toLower (name : String) : String := name.map Char.toLower

/-- `ListALLMember`: every node with the dotted path that leads to it, or the `invalid_argument`
for a path with another character. -/
def listALLMember (path : String) (node : YamlNode) : Except String (List (String × YamlNode)) :=
  if !validName path then .error path
  else
    match node with
    | .map entries => do
      let members ← ofEntries entries
      .ok ((path, .map entries) :: members)
    | node => .ok [(path, node)]
where
  ofEntries : List (String × YamlNode) → Except String (List (String × YamlNode))
  | [] => .ok []
  | (key, child) :: rest => do
    let first ← listALLMember (if path.isEmpty then key else path ++ "." ++ key) child
    let more ← ofEntries rest
    .ok (first ++ more)

/-- The text a variable is given for a node. -/
def YamlNode.text (types : ConfigTypes τ V κ) : YamlNode → String
  | .scalar text => text
  | node => types.emit node

structure Config (τ V κ : Type) where
  /-- `s_datas`. -/
  datas : String → Option Nat
  heap : List (ConfigVar τ V κ)
  /-- `s_fun_id` of each type. -/
  funId : τ → Nat
  /-- The listeners called so far, with their variable. -/
  notified : List (Nat × Nat)

namespace Config

def empty : Config τ V κ := ⟨fun _ => none, [], fun _ => 0, []⟩

def lookupBase (s : Config τ V κ) (name : String) : Option Nat := s.datas name

/-- The last part of `LookUp`: a new variable takes the name. -/
def register (types : ConfigTypes τ V κ) (s : Config τ V κ) (name : String) (default_value : V)
    (description : String) : Nat × Config τ V κ :=
  (s.heap.length, { s with
    datas := Function.update s.datas name (some s.heap.length)
    heap := s.heap ++ [{
      name := toLower name
      description := description
      type := types.typeOf default_value
      val := default_value
      cbs := [] }] })

variable [DecidableEq τ]

/-- `LookUp<T>(name, default_value, description)` with the type `T` of the default value: the
pointer, or the `invalid_argument` thrown. -/
def lookUp (types : ConfigTypes τ V κ) (s : Config τ V κ) (name : String) (default_value : V)
    (description : String) : Except String (Nat × Config τ V κ) :=
  match s.datas name with
  | some a =>
    match s.heap[a]? with
    | some var =>
      if var.type = types.typeOf default_value then
        -- the variable that exists is logged, and not returned
        if !validName name then .error name
        else .ok (s.register types name default_value description)
      else .error name
    | none => .error name
  | none =>
    if !validName name then .error name else .ok (s.register types name default_value description)

/-- One variable of the heap is changed by a call that notifies listeners. -/
def store (s : Config τ V κ) (a : Nat) (var : ConfigVar τ V κ) (called : List Nat) :
    Config τ V κ :=
  { s with heap := s.heap.set a var, notified := s.notified ++ called.map (a, ·) }

/-- The body of the loop of `LodeFromYaml`. -/
def loadMember (types : ConfigTypes τ V κ) (s : Config τ V κ) (member : String × YamlNode) :
    Config τ V κ :=
  if member.1.isEmpty then s
  else
    -- a variable is reached through the registry alone
    match s.lookupBase (toLower member.1) with
    | none => s
    | some a =>
      match s.heap[a]? with
      | none => s
      | some var =>
        let (var, called) := var.fromString types (member.2.text types)
        s.store a var called

/-- `LodeFromYaml`: the paths are checked before anything is changed. -/
def lodeFromYaml (types : ConfigTypes τ V κ) (s : Config τ V κ) (root : YamlNode) :
    Except String (Config τ V κ) := do
  let all_node ← listALLMember "" root
  .ok (all_node.foldl (loadMember types) s)

end Config

end Dwframe
