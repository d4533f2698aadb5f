import Dwframe.TcpServer.Conf

/-!
# Conversions of containers

`LexicalCast` of a `vector`, a `list` or a `map` makes a tree of its elements: each is converted to
a text, which `YAML::Load` reads. On the way back the nodes are printed, and what is printed is
converted. So an element makes a detour of its own, and containers of containers make it at every
level.
-/
namespace Dwframe

open Lib

/-- `LexicalCast<std::string, T>` and `LexicalCast<T, std::string>`; a fault is an exception. -/
structure LexicalCast (τ : Type) where
  parse : String → Except YamlFault τ
  print : τ → Except YamlFault String

namespace LexicalCast

variable {τ : Type} (yaml : YamlCpp) (cast : LexicalCast τ)

/-- `YAML::Load` of the text of an element. -/
def loadItem (i : τ) : Except YamlFault YamlNode := do
  let text ← cast.print i
  yaml.loadNode text

/-- The conversion of `node[i]`; a node that is not defined prints nothing. -/
def parseItem (item : Option YamlNode) : Except YamlFault τ :=
  match item with
  | some node => cast.parse (yaml.emit node)
  | none => cast.parse ""

/-- The node that is printed; without an element it stays null. -/
def vectorNode (v : List τ) : Except YamlFault YamlNode := do
  let items ← v.mapM (cast.loadItem yaml)
  .ok (if items.isEmpty then .null else .sequence items)

/-- The conversions of `std::vector<T>`, and of `std::list<T>`. -/
def vector : LexicalCast (List τ) where
  parse v := do
    let node ← yaml.loadNode v
    node.elements.mapM (cast.parseItem yaml)
  print v := do
    let node ← cast.vectorNode yaml v
    .ok (yaml.emit node)

def loadEntry (i : String × τ) : Except YamlFault (String × YamlNode) := do
  let node ← cast.loadItem yaml i.2
  .ok (i.1, node)

def mapNode (m : SortedMap String τ) : Except YamlFault YamlNode := do
  let entries ← m.entries.mapM (cast.loadEntry yaml)
  .ok (if entries.isEmpty then .null else .map entries)

/-- The conversions of `std::map<std::string, T>`; the items of a sequence have no key. -/
def map : LexicalCast (SortedMap String τ) where
  parse v := do
    match ← yaml.loadNode v with
    | .map entries =>
      entries.foldlM (fun m it => do
        let value ← cast.parse (yaml.emit it.2)
        .ok (m.insert it.1 value)) .empty
    | .sequence (_ :: _) => .error .invalidNode
    | .sequence [] | .null | .scalar _ => .ok .empty
  print m := do
    let node ← cast.mapNode yaml m
    .ok (yaml.emit node)

/-- What is printed reads back as the value. -/
def RoundTrips (x : τ) : Prop := (cast.print x >>= cast.parse) = .ok x

/-- So does what the node of its text prints. -/
def Survives (x : τ) : Prop :=
  ∃ node, cast.loadItem yaml x = .ok node ∧ cast.parse (yaml.emit node) = .ok x

/-! ### One container -/

variable {yaml} {cast}

theorem loadNode_emit {node : YamlNode} (reload : yaml.load (yaml.emit node) = some node) :
    yaml.loadNode (yaml.emit node) = .ok node := by
  rw [YamlCpp.loadNode, reload]

/-- Where the trees at hand reload, the detour of a container changes nothing. -/
theorem vector_survives_iff {v : List τ}
    (reloads : ∀ node, cast.vectorNode yaml v = .ok node → yaml.load (yaml.emit node) = some node) :
    (cast.vector yaml).Survives yaml v ↔ (cast.vector yaml).RoundTrips v := by
  cases built : cast.vectorNode yaml v with
  | error fault =>
    simp [Survives, RoundTrips, vector, loadItem, built, bind, Except.bind]
  | ok node =>
    have back := loadNode_emit (reloads node built)
    simp [Survives, RoundTrips, vector, loadItem, built, back, bind, Except.bind]

theorem vector_roundTrips_iff {v : List τ}
    (reloads : ∀ node, cast.vectorNode yaml v = .ok node → yaml.load (yaml.emit node) = some node) :
    (cast.vector yaml).RoundTrips v ↔ ∀ i ∈ v, cast.Survives yaml i := by
  have each : (∀ i ∈ v, cast.Survives yaml i) ↔ ∃ items, v.mapM (cast.loadItem yaml) = .ok items ∧
      items.mapM (fun node => cast.parse (yaml.emit node)) = .ok v := mapM_back_iff.symm
  rw [each]
  cases loaded : v.mapM (cast.loadItem yaml) with
  | error fault =>
    simp [RoundTrips, vector, vectorNode, loaded, bind, Except.bind]
  | ok items =>
    have built : cast.vectorNode yaml v =
        .ok (if items.isEmpty then .null else .sequence items) := by
      simp [vectorNode, loaded, bind, Except.bind]
    have back := loadNode_emit (reloads _ built)
    -- the elements of the tree are the items again
    have elements : (if items.isEmpty then YamlNode.null else .sequence items).elements =
        items.map some := by
      cases items <;> rfl
    have printed : (cast.vector yaml).RoundTrips v ↔
        (items.map some).mapM (cast.parseItem yaml) = .ok v := by
      simp only [RoundTrips, vector, built, back, bind, Except.bind, elements]
    rw [printed, List.mapM_map]
    constructor
    · exact fun parsed => ⟨items, rfl, parsed⟩
    · rintro ⟨items', same, parsed⟩
      cases same
      exact parsed

theorem map_survives_iff {m : SortedMap String τ}
    (reloads : ∀ node, cast.mapNode yaml m = .ok node → yaml.load (yaml.emit node) = some node) :
    (cast.map yaml).Survives yaml m ↔ (cast.map yaml).RoundTrips m := by
  cases built : cast.mapNode yaml m with
  | error fault =>
    simp [Survives, RoundTrips, map, loadItem, built, bind, Except.bind]
  | ok node =>
    have back := loadNode_emit (reloads node built)
    simp [Survives, RoundTrips, map, loadItem, built, back, bind, Except.bind]

/-- The value of a node of a map, with its key. -/
def parseEntry (yaml : YamlCpp) (cast : LexicalCast τ) (it : String × YamlNode) :
    Except YamlFault (String × τ) := do
  let value ← cast.parse (yaml.emit it.2)
  .ok (it.1, value)

theorem foldlM_insert (entries : List (String × YamlNode)) (m : SortedMap String τ) :
    entries.foldlM (fun m it => do
        let value ← cast.parse (yaml.emit it.2)
        .ok (m.insert it.1 value)) m =
      (entries.mapM (cast.parseEntry yaml)).map fun values =>
        values.foldl (fun m it => m.insert it.1 it.2) m := by
  induction entries generalizing m with
  | nil => rfl
  | cons it rest ih =>
    rw [List.foldlM_cons, List.mapM_cons, parseEntry]
    cases cast.parse (yaml.emit it.2) with
    | error fault => rfl
    | ok value =>
      refine (ih (m.insert it.1 value)).trans ?_
      cases rest.mapM (cast.parseEntry yaml) <;> rfl

/-- Neither way changes the keys. -/
theorem mapM_keys {α β : Type} {f : String × α → Except YamlFault (String × β)}
    (kept : ∀ i j, f i = .ok j → j.1 = i.1) {entries : List (String × α)}
    {entries' : List (String × β)} (ran : entries.mapM f = .ok entries') :
    entries'.map Prod.fst = entries.map Prod.fst := by
  induction entries generalizing entries' with
  | nil =>
    cases ran
    rfl
  | cons i rest ih =>
    obtain ⟨j, rest', first, later, rfl⟩ := mapM_cons_eq_ok.mp ran
    rw [List.map_cons, List.map_cons, kept i j first, ih later]

theorem loadEntry_key {i : String × τ} {j : String × YamlNode}
    (loaded : cast.loadEntry yaml i = .ok j) : j.1 = i.1 := by
  obtain ⟨node, -, whole⟩ := bind_eq_ok.mp loaded
  cases whole
  rfl

theorem parseEntry_key {i : String × YamlNode} {j : String × τ}
    (parsed : cast.parseEntry yaml i = .ok j) : j.1 = i.1 := by
  obtain ⟨value, -, whole⟩ := bind_eq_ok.mp parsed
  cases whole
  rfl

theorem entry_survives_iff {i : String × τ} :
    (∃ j, cast.loadEntry yaml i = .ok j ∧ cast.parseEntry yaml j = .ok i) ↔
      cast.Survives yaml i.2 := by
  obtain ⟨key, value⟩ := i
  constructor
  · rintro ⟨j, there, back⟩
    obtain ⟨node, loaded, whole⟩ := bind_eq_ok.mp there
    cases whole
    obtain ⟨value', parsed, whole⟩ := bind_eq_ok.mp back
    cases whole
    exact ⟨node, loaded, parsed⟩
  · rintro ⟨node, loaded, parsed⟩
    refine ⟨(key, node), bind_eq_ok.mpr ⟨node, loaded, rfl⟩, ?_⟩
    exact bind_eq_ok.mpr ⟨value, parsed, rfl⟩

theorem map_roundTrips_iff {m : SortedMap String τ}
    (reloads : ∀ node, cast.mapNode yaml m = .ok node → yaml.load (yaml.emit node) = some node) :
    (cast.map yaml).RoundTrips m ↔ ∀ i ∈ m.entries, cast.Survives yaml i.2 := by
  have each : (∀ i ∈ m.entries, cast.Survives yaml i.2) ↔
      ∃ entries, m.entries.mapM (cast.loadEntry yaml) = .ok entries ∧
        entries.mapM (cast.parseEntry yaml) = .ok m.entries := by
    rw [mapM_back_iff]
    exact forall₂_congr fun _ _ => entry_survives_iff.symm
  rw [each]
  cases loaded : m.entries.mapM (cast.loadEntry yaml) with
  | error fault =>
    simp [RoundTrips, map, mapNode, loaded, bind, Except.bind]
  | ok entries =>
    have built : cast.mapNode yaml m = .ok (if entries.isEmpty then .null else .map entries) := by
      simp [mapNode, loaded, bind, Except.bind]
    have back := loadNode_emit (reloads _ built)
    have printed : (cast.map yaml).RoundTrips m ↔
        ((entries.mapM (cast.parseEntry yaml)).map fun values =>
          values.foldl (fun m it => m.insert it.1 it.2) .empty) = .ok m := by
      rw [← foldlM_insert]
      simp only [RoundTrips, map, built, back, bind, Except.bind]
      cases entries <;> exact Iff.rfl
    rw [printed]
    cases parsed : entries.mapM (cast.parseEntry yaml) with
    | error fault => simp [Except.map, parsed]
    | ok values =>
      -- the keys are those of the map, so nothing is lost and the order is kept
      have keys : values.map Prod.fst = m.entries.map Prod.fst :=
        (mapM_keys (fun _ _ => parseEntry_key) parsed).trans
          (mapM_keys (fun _ _ => loadEntry_key) loaded)
      have sorted : values.Pairwise fun a b => a.1 < b.1 := by
        have sorted' : (values.map Prod.fst).Pairwise (· < ·) := by
          rw [keys, List.pairwise_map]
          exact m.sorted
        exact List.pairwise_map.mp sorted'
      constructor
      · intro same
        have whole := Except.ok.inj same
        dsimp only at whole
        rw [SortedMap.foldl_insert_of_sorted sorted] at whole
        exact ⟨entries, rfl, by rw [parsed, ← whole]⟩
      · rintro ⟨entries', same, back⟩
        cases same
        cases parsed.symm.trans back
        exact congrArg Except.ok (SortedMap.foldl_insert_of_sorted m.sorted)

end LexicalCast

/-! ### Containers of containers -/

/-- A type made of `vector` and `map`. -/
inductive ConfigShape where
  | scalar
  | vector (item : ConfigShape)
  | map (value : ConfigShape)
  deriving DecidableEq, Repr

namespace ConfigShape

variable {τ : Type}

abbrev Value (τ : Type) : ConfigShape → Type
  | .scalar => τ
  | .vector item => List (item.Value τ)
  | .map value => SortedMap String (value.Value τ)

/-- The conversions, over those of the elements at the bottom. -/
def lexicalCast (yaml : YamlCpp) (leaf : LexicalCast τ) :
    (s : ConfigShape) → LexicalCast (s.Value τ)
  | .scalar => leaf
  | .vector item => (item.lexicalCast yaml leaf).vector yaml
  | .map value => (value.lexicalCast yaml leaf).map yaml

/-- Every element at the bottom is so. -/
def Each (p : τ → Prop) : (s : ConfigShape) → s.Value τ → Prop
  | .scalar, x => p x
  | .vector item, (v : List (item.Value τ)) => ∀ i ∈ v, item.Each p i
  | .map value, (m : SortedMap String (value.Value τ)) => ∀ i ∈ m.entries, value.Each p i.2

/-- yaml-cpp loads the trees that are printed on the way as they are. -/
def Reloads (yaml : YamlCpp) (leaf : LexicalCast τ) : (s : ConfigShape) → s.Value τ → Prop
  | .scalar, _ => True
  | .vector item, (v : List (item.Value τ)) => (∀ i ∈ v, item.Reloads yaml leaf i) ∧
    ∀ node, (item.lexicalCast yaml leaf).vectorNode yaml v = .ok node →
      yaml.load (yaml.emit node) = some node
  | .map value, (m : SortedMap String (value.Value τ)) =>
    (∀ i ∈ m.entries, value.Reloads yaml leaf i.2) ∧
      ∀ node, (value.lexicalCast yaml leaf).mapNode yaml m = .ok node →
        yaml.load (yaml.emit node) = some node

variable {yaml : YamlCpp} {leaf : LexicalCast τ}

theorem survives_iff {s : ConfigShape} {x : s.Value τ} (reloads : s.Reloads yaml leaf x) :
    (s.lexicalCast yaml leaf).Survives yaml x ↔ s.Each (leaf.Survives yaml) x := by
  induction s with
  | scalar => exact Iff.rfl
  | vector item ih =>
    obtain ⟨items, tree⟩ := reloads
    refine (LexicalCast.vector_survives_iff tree).trans ?_
    refine (LexicalCast.vector_roundTrips_iff tree).trans ?_
    exact forall₂_congr fun i member => ih (items i member)
  | map value ih =>
    obtain ⟨values, tree⟩ := reloads
    refine (LexicalCast.map_survives_iff tree).trans ?_
    refine (LexicalCast.map_roundTrips_iff tree).trans ?_
    exact forall₂_congr fun i member => ih (values i member)

/-- A container of any depth reads back as it was printed if and only if every element at the
bottom survives the detour of its own text through a tree. -/
theorem roundTrips_iff {s : ConfigShape} {x : s.Value τ} (container : s ≠ .scalar)
    (reloads : s.Reloads yaml leaf x) :
    (s.lexicalCast yaml leaf).RoundTrips x ↔ s.Each (leaf.Survives yaml) x := by
  cases s with
  | scalar => exact absurd rfl container
  | vector item =>
    rw [← survives_iff reloads]
    exact (LexicalCast.vector_survives_iff reloads.2).symm
  | map value =>
    rw [← survives_iff reloads]
    exact (LexicalCast.map_survives_iff reloads.2).symm

/-- yaml-cpp on the map of one list, with `b` or nothing in it. -/
def sampleYaml : YamlCpp where
  emit
    | .null => "~"
    | .scalar text => text
    | .sequence [.scalar "b"] => "- b"
    | .sequence [.null] => "- ~"
    | .map [("a", .sequence [.scalar "b"])] => "a:\n  - b"
    | .map [("a", .sequence [.null])] => "a:\n  - ~"
    | _ => ""
  load read :=
    if read = "" ∨ read = "~" then some .null
    else if read = "b" then some (.scalar "b")
    else if read = "- b" then some (.sequence [.scalar "b"])
    else if read = "- ~" then some (.sequence [.null])
    else if read = "a:\n  - b" then some (.map [("a", .sequence [.scalar "b"])])
    else if read = "a:\n  - ~" then some (.map [("a", .sequence [.null])])
    else none
  ofInt := toString
  asInt := String.toInt?

/-- The conversions of `std::string`. -/
def text : LexicalCast String := ⟨.ok, .ok⟩

/-- A list with the text `b` in a map comes back; one with an empty text comes back with `~`. -/
theorem roundTrips_iff_lists :
    ((map (vector scalar)).lexicalCast sampleYaml text).RoundTrips
        (SortedMap.insert .empty "a" ["b"]) ∧
      ¬((map (vector scalar)).lexicalCast sampleYaml text).RoundTrips
        (SortedMap.insert .empty "a" [""]) := by
  have reloads : ∀ item : String, item = "b" ∨ item = "" →
      (map (vector scalar)).Reloads sampleYaml text (SortedMap.insert .empty "a" [item]) := by
    rintro item (rfl | rfl)
    all_goals
      refine ⟨fun i member => ?_, fun node built => ?_⟩
      · cases List.mem_singleton.mp member
        refine ⟨fun _ _ => trivial, fun node built => ?_⟩
        cases built
        rfl
      · cases built
        rfl
  rw [roundTrips_iff (by decide) (reloads "b" (.inl rfl)),
    roundTrips_iff (by decide) (reloads "" (.inr rfl))]
  constructor
  · intro i member j member'
    cases List.mem_singleton.mp member
    cases List.mem_singleton.mp member'
    exact ⟨.scalar "b", rfl, rfl⟩
  · intro each
    obtain ⟨node, loaded, parsed⟩ :=
      each ("a", [""]) (List.mem_singleton_self _) "" (List.mem_singleton_self _)
    cases loaded
    exact absurd (Except.ok.inj parsed) (by decide)

end ConfigShape

/-! ### The arguments of a server -/

/-- They are read and printed as a map of texts. -/
theorem TcpServerConf.args_eq (yaml : YamlCpp) :
    decodeArgs yaml = (ConfigShape.text.map yaml).parse ∧
      argsNode yaml = ConfigShape.text.mapNode yaml := by
  constructor
  · funext v
    simp only [decodeArgs, LexicalCast.map]
    congr 1
    funext node
    cases node with
    | map entries =>
      have insertAll : ∀ (entries : List (String × YamlNode)) (m : SortedMap String String),
          entries.foldlM (fun m it => do
              let value ← ConfigShape.text.parse (yaml.emit it.2)
              .ok (m.insert it.1 value)) m =
            (.ok (entries.foldl (fun m it => m.insert it.1 (yaml.emit it.2)) m) :
              Except YamlFault (SortedMap String String)) := by
        intro entries
        induction entries with
        | nil => exact fun _ => rfl
        | cons it rest ih => exact fun m => ih (m.insert it.1 (yaml.emit it.2))
      exact (insertAll entries .empty).symm
    | sequence items => cases items <;> rfl
    | null => rfl
    | scalar => rfl
  · rfl

end Dwframe
