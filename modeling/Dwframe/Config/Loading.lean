import Dwframe.Config.Model
import Dwframe.Lib.Monad

/-!
# Loading a document

The nodes of a tree are listed each before its children, with the keys that lead to them.
`Loading` is a configuration with the calls of `fromString` that a document has made: either
the document makes one for each node with a registered name, in this order, or it throws
before the first.
-/
namespace Dwframe

open Lib

variable {τ V κ : Type}

namespace YamlNode

/-- Only maps have children that are configuration nodes. -/
theorem entries_induction {P : YamlNode → Prop} (null : P .null)
    (scalar : ∀ text, P (.scalar text)) (sequence : ∀ items, P (.sequence items))
    (map : ∀ entries, (∀ entry ∈ entries, P entry.2) → P (.map entries)) : ∀ node, P node :=
  @YamlNode.rec P (fun _ => True) (fun entries => ∀ entry ∈ entries, P entry.2)
    (fun entry => P entry.2) null scalar (fun items _ => sequence items) map trivial
    (fun _ _ _ _ => trivial) (fun _ member => absurd member List.not_mem_nil)
    (fun _ _ first rest => List.forall_mem_cons.mpr ⟨first, rest⟩) (fun _ _ child => child)

/-- The nodes of a tree, each before its children, with the keys that lead to them. -/
def preorder : YamlNode → List (List String × YamlNode)
  | .map entries => ([], .map entries) :: ofEntries entries
  | node => [([], node)]
where
  ofEntries : List (String × YamlNode) → List (List String × YamlNode)
  | [] => []
  | (key, child) :: rest =>
    (preorder child).map (fun place => (key :: place.1, place.2)) ++ ofEntries rest

/-- The path of a member; an empty prefix is not put before it. -/
def extend (path key : String) : String := if path.isEmpty then key else path ++ "." ++ key

/-- The nodes of a tree with their dotted paths, where the root has the path `path`. -/
def members (path : String) (node : YamlNode) : List (String × YamlNode) :=
  node.preorder.map fun place => (place.1.foldl extend path, place.2)

theorem preorder_ofEntries (entries : List (String × YamlNode)) :
    preorder.ofEntries entries = entries.flatMap fun entry =>
      entry.2.preorder.map fun place => (entry.1 :: place.1, place.2) := by
  induction entries with
  | nil => rfl
  | cons entry rest ih => rw [preorder.ofEntries, ih, List.flatMap_cons]

theorem preorder_map (entries : List (String × YamlNode)) :
    (map entries).preorder = ([], .map entries) :: entries.flatMap fun entry =>
      entry.2.preorder.map fun place => (entry.1 :: place.1, place.2) := by
  rw [preorder, preorder_ofEntries]

theorem members_map (path : String) (entries : List (String × YamlNode)) :
    members path (.map entries) =
      (path, .map entries) :: entries.flatMap fun entry =>
        members (extend path entry.1) entry.2 := by
  simp only [members, preorder_map, List.map_cons, List.foldl_nil, List.map_flatMap, List.map_map]
  rfl

end YamlNode

open YamlNode

/-! ### The listing -/

/-- A list of nodes, or the first path that is not accepted. -/
def checked (members : List (String × YamlNode)) : Except String (List (String × YamlNode)) :=
  match members.find? fun member => !validName member.1 with
  | none => .ok members
  | some member => .error member.1

theorem checked_cons (member : String × YamlNode) (rest : List (String × YamlNode)) :
    checked (member :: rest) =
      if !validName member.1 then .error member.1
      else (checked rest).map (member :: ·) := by
  rw [checked, List.find?_cons, checked]
  cases validName member.1 with
  | false => rfl
  | true => cases rest.find? (fun member => !validName member.1) <;> rfl

theorem checked_append (front back : List (String × YamlNode)) :
    checked (front ++ back) =
      (checked front).bind fun listed => (checked back).map (listed ++ ·) := by
  rw [checked, List.find?_append, checked, checked]
  cases front.find? (fun member => !validName member.1) with
  | some wrong => rfl
  | none => cases back.find? (fun member => !validName member.1) <;> rfl

/-- The listing checks the paths in the order of the tree. -/
theorem listALLMember_eq (node : YamlNode) (path : String) :
    listALLMember path node = checked (members path node) := by
  induction node using entries_induction generalizing path with
  | null =>
    rw [show members path .null = [(path, .null)] from rfl, checked_cons]
    rfl
  | scalar text =>
    rw [show members path (.scalar text) = [(path, .scalar text)] from rfl, checked_cons]
    rfl
  | sequence items =>
    rw [show members path (.sequence items) = [(path, .sequence items)] from rfl, checked_cons]
    rfl
  | map entries ih =>
    have below : listALLMember.ofEntries path entries =
        checked (entries.flatMap fun entry => members (extend path entry.1) entry.2) := by
      induction entries with
      | nil => rfl
      | cons entry rest ih_rest =>
        -- the first entry's nodes are checked before those of the others
        obtain ⟨of_first, of_rest⟩ := List.forall_mem_cons.mp ih
        rw [List.flatMap_cons, checked_append, ← of_first, ← ih_rest of_rest]
        rfl
    rw [members_map, checked_cons, ← below]
    rfl

/-! ### The loop -/

/-- The configuration while a document is loaded, with the calls of `fromString` made so far:
the variable and the text. -/
structure Loading (τ V κ : Type) where
  config : Config τ V κ
  calls : List (Nat × String)

/-- `var->fromString(text)` through a pointer. -/
def Config.fromStringAt (types : ConfigTypes τ V κ) (s : Config τ V κ) (call : Nat × String) :
    Config τ V κ :=
  match s.heap[call.1]? with
  | none => s
  | some var =>
    let (var, called) := var.fromString types call.2
    s.store call.1 var called

namespace Loading

/-- The body of the loop of `LodeFromYaml`. -/
def loadMember (types : ConfigTypes τ V κ) (member : String × YamlNode) :
    EStateM String (Loading τ V κ) Unit := do
  if member.1.isEmpty then return
  let s ← get
  match s.config.lookupBase (toLower member.1) with
  | none => return
  | some a =>
    let call := (a, member.2.text types)
    set (Loading.mk (s.config.fromStringAt types call) (s.calls ++ [call]))

/-- `LodeFromYaml`, with the state that an exception leaves. -/
def lodeFromYaml (types : ConfigTypes τ V κ) (root : YamlNode) :
    EStateM String (Loading τ V κ) Unit := do
  match listALLMember "" root with
  | .error path => throw path
  | .ok all_node => forM all_node (loadMember types)

/-- A path has a character that names do not have. -/
def Rejected (root : YamlNode) : Prop :=
  ∃ member ∈ members "" root, ∃ c ∈ member.1.toList, c ∉ configAlphabet.toList

/-- The call for a node, if its path is a name. -/
def callFor (types : ConfigTypes τ V κ) (datas : String → Option Nat)
    (member : String × YamlNode) : Option (Nat × String) :=
  if member.1 = "" then none else (datas member.1).map fun a => (a, member.2.text types)

/-- The calls a document stands for, in the order of its tree. -/
def expected (types : ConfigTypes τ V κ) (datas : String → Option Nat) (root : YamlNode) :
    List (Nat × String) :=
  (members "" root).filterMap (callFor types datas)

end Loading

theorem toLower_of_valid {name : String} (valid : validName name) : toLower name = name := by
  -- the alphabet has no capitals
  have fixed : configAlphabet.toList.all (fun c => c.toLower == c) = true := rfl
  rw [List.all_eq_true] at fixed
  rw [validName, List.all_eq_true] at valid
  rw [toLower, ← String.toList_inj, String.toList_map]
  refine (List.map_congr_left fun c member => ?_).trans (List.map_id _)
  exact eq_of_beq (fixed c (of_decide_eq_true (valid c member)))

namespace Config

/-- Nothing changes but the variables of some calls, and only their listeners run. -/
structure Within (touched : List Nat) (s s' : Config τ V κ) : Prop where
  datas : s'.datas = s.datas
  funId : s'.funId = s.funId
  length : s'.heap.length = s.heap.length
  heap : ∀ a, a ∉ touched → s'.heap[a]? = s.heap[a]?
  notified : ∃ more, s'.notified = s.notified ++ more ∧ ∀ entry ∈ more, entry.1 ∈ touched

variable {types : ConfigTypes τ V κ} {s : Config τ V κ}

theorem Within.refl (s : Config τ V κ) : Within [] s s where
  datas := rfl
  funId := rfl
  length := rfl
  heap _ _ := rfl
  notified := ⟨[], (List.append_nil _).symm, fun _ member => absurd member List.not_mem_nil⟩

theorem Within.trans {front back : List Nat} {s' s'' : Config τ V κ} (first : Within front s s')
    (second : Within back s' s'') : Within (front ++ back) s s'' where
  datas := second.datas.trans first.datas
  funId := second.funId.trans first.funId
  length := second.length.trans first.length
  heap a outside := by
    rw [List.mem_append, not_or] at outside
    exact (second.heap a outside.2).trans (first.heap a outside.1)
  notified := by
    obtain ⟨called, eq, inside⟩ := first.notified
    obtain ⟨called', eq', inside'⟩ := second.notified
    refine ⟨called ++ called', by rw [eq', eq, List.append_assoc], fun entry member => ?_⟩
    rcases List.mem_append.mp member with early | late
    · exact List.mem_append_left _ (inside entry early)
    · exact List.mem_append_right _ (inside' entry late)

theorem fromStringAt_within (s : Config τ V κ) (call : Nat × String) :
    Within [call.1] s (s.fromStringAt types call) := by
  rw [fromStringAt]
  split
  · exact ⟨rfl, rfl, rfl, fun _ _ => rfl, [], (List.append_nil _).symm, nofun⟩
  next var here =>
    refine ⟨rfl, rfl, List.length_set, fun a outside => ?_, _, rfl, fun entry member => ?_⟩
    · rw [List.mem_singleton] at outside
      exact List.getElem?_set_ne (Ne.symm outside)
    · obtain ⟨key, -, rfl⟩ := List.mem_map.mp member
      exact List.mem_singleton_self _

theorem foldl_fromStringAt_within (calls : List (Nat × String)) (s : Config τ V κ) :
    Within (calls.map Prod.fst) s (calls.foldl (fromStringAt types) s) := by
  induction calls generalizing s with
  | nil => exact .refl s
  | cons call rest ih => exact (fromStringAt_within s call).trans (ih _)

open Loading (callFor expected)

theorem loadMember_eq {member : String × YamlNode} (valid : validName member.1) :
    s.loadMember types member =
      match callFor types s.datas member with
      | none => s
      | some call => s.fromStringAt types call := by
  rw [loadMember, callFor, lookupBase, toLower_of_valid valid]
  by_cases empty : member.1 = ""
  · rw [if_pos (String.isEmpty_iff.mpr empty), if_pos empty]
  · rw [if_neg (mt String.isEmpty_iff.mp empty), if_neg empty]
    cases s.datas member.1 with
    | none => rfl
    | some a => rfl

theorem foldl_loadMember {members : List (String × YamlNode)}
    (valid : ∀ member ∈ members, validName member.1) :
    members.foldl (loadMember types) s =
      (members.filterMap (callFor types s.datas)).foldl (fromStringAt types) s := by
  induction members generalizing s with
  | nil => rfl
  | cons member rest ih =>
    obtain ⟨first, rest_valid⟩ := List.forall_mem_cons.mp valid
    rw [List.foldl_cons, loadMember_eq first, List.filterMap_cons]
    cases callFor types s.datas member with
    | none => exact ih rest_valid
    | some call => rw [ih rest_valid, List.foldl_cons, (fromStringAt_within s call).datas]

end Config

namespace Loading

variable {types : ConfigTypes τ V κ}

theorem loadMember_apply {member : String × YamlNode} (valid : validName member.1)
    (s : Loading τ V κ) :
    loadMember types member s =
      .ok () ⟨s.config.loadMember types member,
        s.calls ++ (callFor types s.config.datas member).toList⟩ := by
  rw [Config.loadMember_eq valid, loadMember, callFor]
  by_cases empty : member.1 = ""
  · simp [empty]
  · cases found : s.config.datas member.1 with
    | none => simp [empty, Config.lookupBase, toLower_of_valid valid, found]
    | some a => simp [empty, Config.lookupBase, toLower_of_valid valid, found]

theorem forM_loadMember {members : List (String × YamlNode)}
    (valid : ∀ member ∈ members, validName member.1) (s : Loading τ V κ) :
    forM members (loadMember types) s =
      .ok () ⟨members.foldl (Config.loadMember types) s.config,
        s.calls ++ members.filterMap (callFor types s.config.datas)⟩ := by
  induction members generalizing s with
  | nil => simp
  | cons member rest ih =>
    obtain ⟨first, rest_valid⟩ := List.forall_mem_cons.mp valid
    -- no call registers a name, so every node meets the registry of the start
    have datas : (s.config.loadMember types member).datas = s.config.datas := by
      rw [Config.loadMember_eq first]
      cases callFor types s.config.datas member with
      | none => rfl
      | some call => exact (Config.fromStringAt_within s.config call).datas
    rw [List.forM_cons, bind_apply, loadMember_apply first]
    simp only [ih rest_valid, List.foldl_cons, datas, List.append_assoc]
    rw [List.filterMap_cons]
    cases callFor types s.config.datas member with
    | none => rfl
    | some call => rfl

theorem rejected_iff {root : YamlNode} :
    Rejected root ↔ ∃ member ∈ members "" root, validName member.1 = false := by
  simp only [Rejected, validName, List.all_eq_false, decide_eq_true_eq]

theorem listed_of_rejected {root : YamlNode} (rejected : Rejected root) :
    ∃ path, listALLMember "" root = .error path := by
  obtain ⟨member, inside, wrong⟩ := rejected_iff.mp rejected
  rw [listALLMember_eq, checked]
  cases found : (members "" root).find? fun member => !validName member.1 with
  | some member => exact ⟨member.1, rfl⟩
  | none =>
    have valid := List.find?_eq_none.mp found member inside
    rw [wrong] at valid
    exact absurd rfl valid

theorem listed_of_accepted {root : YamlNode} (accepted : ¬Rejected root) :
    listALLMember "" root = .ok (members "" root) ∧
      ∀ member ∈ members "" root, validName member.1 := by
  have valid : ∀ member ∈ members "" root, validName member.1 := by
    intro member inside
    by_contra wrong
    exact accepted (rejected_iff.mpr ⟨member, inside, Bool.eq_false_iff.mpr wrong⟩)
  refine ⟨?_, valid⟩
  rw [listALLMember_eq, checked, List.find?_eq_none.mpr fun member inside => ?_]
  rw [valid member inside]
  exact Bool.false_ne_true

end Loading

theorem Config.lodeFromYaml_of_rejected (types : ConfigTypes τ V κ) (s : Config τ V κ)
    {root : YamlNode} (rejected : Loading.Rejected root) :
    ∃ path, s.lodeFromYaml types root = .error path := by
  obtain ⟨path, listed⟩ := Loading.listed_of_rejected rejected
  refine ⟨path, ?_⟩
  rw [lodeFromYaml, listed]
  rfl

theorem Config.lodeFromYaml_of_accepted {types : ConfigTypes τ V κ} {s : Config τ V κ}
    {root : YamlNode} (accepted : ¬Loading.Rejected root) :
    s.lodeFromYaml types root =
      .ok ((Loading.expected types s.datas root).foldl (fromStringAt types) s) := by
  obtain ⟨listed, valid⟩ := Loading.listed_of_accepted accepted
  rw [lodeFromYaml, listed, Loading.expected, ← foldl_loadMember valid]
  rfl

namespace Loading

/-- The pure function of the model, run with its calls. -/
theorem lodeFromYaml_eq (types : ConfigTypes τ V κ) (root : YamlNode) (s : Loading τ V κ) :
    lodeFromYaml types root s =
      match s.config.lodeFromYaml types root with
      | .error path => .error path s
      | .ok config => .ok () ⟨config, s.calls ++ expected types s.config.datas root⟩ := by
  by_cases rejected : Rejected root
  · obtain ⟨path, listed⟩ := listed_of_rejected rejected
    rw [lodeFromYaml, Config.lodeFromYaml, listed]
    rfl
  · obtain ⟨listed, valid⟩ := listed_of_accepted rejected
    rw [lodeFromYaml, Config.lodeFromYaml, listed]
    exact forM_loadMember valid s

/-- A document is loaded as a whole or not at all. -/
theorem lodeFromYaml_whole (types : ConfigTypes τ V κ) (root : YamlNode) (s : Loading τ V κ) :
    (Rejected root → ∃ path, lodeFromYaml types root s = .error path s) ∧
    (¬Rejected root → ∃ s', lodeFromYaml types root s = .ok () s' ∧
      s'.calls = s.calls ++ expected types s.config.datas root ∧
      s'.config =
        (expected types s.config.datas root).foldl (Config.fromStringAt types) s.config ∧
      Config.Within ((expected types s.config.datas root).map Prod.fst) s.config s'.config) := by
  constructor
  · intro rejected
    obtain ⟨path, threw⟩ := s.config.lodeFromYaml_of_rejected types rejected
    exact ⟨path, by rw [lodeFromYaml_eq, threw]⟩
  · intro accepted
    rw [lodeFromYaml_eq, Config.lodeFromYaml_of_accepted accepted]
    exact ⟨_, rfl, rfl, rfl, Config.foldl_fromStringAt_within _ _⟩

end Loading

end Dwframe
