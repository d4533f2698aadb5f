import Dwframe.Config.Loading
import Dwframe.Config.Sharing

/-!
# The case of keys

`LodeFromYaml` lowers the case of a path before it looks for the variable, but a path with a
capital has been thrown at in the listing by then, and so has one with the digit 9.
-/
namespace Dwframe

variable {τ V κ : Type}

namespace YamlNode

/-- A tree with the case of its keys lowered; what stands in a sequence is a value. -/
def lowered : YamlNode → YamlNode
  | .map entries => .map (ofEntries entries)
  | node => node
where
  ofEntries : List (String × YamlNode) → List (String × YamlNode)
  | [] => []
  | (key, child) :: rest => (toLower key, child.lowered) :: ofEntries rest

/-- A property of all keys of a tree. -/
def AllKeys (P : String → Prop) (root : YamlNode) : Prop :=
  ∀ place ∈ root.preorder, ∀ key ∈ place.1, P key

theorem self_mem_preorder (node : YamlNode) : ([], node) ∈ node.preorder := by
  cases node <;> exact List.mem_cons_self

theorem mem_preorder_map {entries : List (String × YamlNode)} {place : List String × YamlNode} :
    place ∈ (map entries).preorder ↔
      place = ([], .map entries) ∨
        ∃ entry ∈ entries, ∃ below ∈ entry.2.preorder, (entry.1 :: below.1, below.2) = place := by
  simp only [preorder_map, List.mem_cons, List.mem_flatMap, List.mem_map]

theorem allKeys_map {P : String → Prop} {entries : List (String × YamlNode)} :
    AllKeys P (.map entries) ↔ ∀ entry ∈ entries, P entry.1 ∧ AllKeys P entry.2 := by
  constructor
  · intro all entry member
    have below {place} (inside : place ∈ entry.2.preorder) :=
      List.forall_mem_cons.mp
        (all _ (mem_preorder_map.mpr (.inr ⟨entry, member, place, inside, rfl⟩)))
    exact ⟨(below (self_mem_preorder entry.2)).1, fun place inside => (below inside).2⟩
  · intro all place member
    rcases mem_preorder_map.mp member with rfl | ⟨entry, inside, below, child, rfl⟩
    · exact fun key none => absurd none List.not_mem_nil
    · obtain ⟨first, rest⟩ := all entry inside
      exact List.forall_mem_cons.mpr ⟨first, rest below child⟩

theorem allKeys_single {P : String → Prop} {key text : String} (holds : P key) :
    AllKeys P (.map [(key, .scalar text)]) :=
  allKeys_map.mpr (List.forall_mem_singleton.mpr ⟨holds, by simp [AllKeys, preorder]⟩)

theorem lowered_ofEntries (entries : List (String × YamlNode)) :
    lowered.ofEntries entries = entries.map fun entry => (toLower entry.1, entry.2.lowered) := by
  induction entries with
  | nil => rfl
  | cons entry rest ih => rw [lowered.ofEntries, ih, List.map_cons]

/-- Accepted keys have no capitals. -/
theorem lowered_of_valid {root : YamlNode} (valid : AllKeys (fun key => validName key) root) :
    root.lowered = root := by
  induction root using entries_induction with
  | null => rfl
  | scalar text => rfl
  | sequence items => rfl
  | map entries ih =>
    rw [allKeys_map] at valid
    rw [lowered, lowered_ofEntries]
    refine congrArg map ((List.map_congr_left fun entry member => ?_).trans (List.map_id _))
    obtain ⟨key, below⟩ := valid entry member
    rw [toLower_of_valid key, ih entry member below]
    rfl

/-- A key of ASCII letters, digits, dots and underscores. -/
def KeyText (key : String) : Prop :=
  key ≠ "" ∧ ∀ c ∈ key.toList, c.isAlpha ∨ c.isDigit ∨ c = '.' ∨ c = '_'

/-- A key without a capital and without a 9. -/
def Plain (key : String) : Prop := ∀ c ∈ key.toList, ¬c.isUpper ∧ c ≠ '9'

end YamlNode

open YamlNode

theorem toNat_lt_of_le {c d : Char} {n : Nat} (le : c.val ≤ d.val) (below : d.toNat < n) :
    c.toNat < n :=
  Nat.lt_of_le_of_lt (UInt32.le_iff_toNat_le.mp le) below

theorem mem_configAlphabet {c : Char} (text : c.isAlpha ∨ c.isDigit ∨ c = '.' ∨ c = '_') :
    c ∈ configAlphabet.toList ↔ ¬c.isUpper ∧ c ≠ '9' := by
  have all : ∀ n < 128, Char.isAlpha (.ofNat n) ∨ Char.isDigit (.ofNat n) ∨ Char.ofNat n = '.' ∨
      Char.ofNat n = '_' →
      (Char.ofNat n ∈ configAlphabet.toList ↔ ¬Char.isUpper (.ofNat n) ∧ Char.ofNat n ≠ '9') := by
    decide
  have ascii : c.toNat < 128 := by
    rcases text with letter | digit | rfl | rfl
    · rcases Bool.or_eq_true_iff.mp letter with capital | small
      · exact toNat_lt_of_le (of_decide_eq_true capital).2 (by decide)
      · exact toNat_lt_of_le (of_decide_eq_true (Bool.and_eq_true_iff.mp small).2) (by decide)
    · exact toNat_lt_of_le (of_decide_eq_true (Bool.and_eq_true_iff.mp digit).2) (by decide)
    · decide
    · decide
  -- a character is the one of its number
  have same := all c.toNat ascii
  rw [Char.ofNat_toNat] at same
  exact same text

theorem validName_iff {name : String} :
    validName name ↔ ∀ c ∈ name.toList, c ∈ configAlphabet.toList := by
  simp only [validName, List.all_eq_true, decide_eq_true_eq]

theorem validName_extend (path key : String) :
    validName (extend path key) ↔ validName path ∧ validName key := by
  rw [extend]
  split
  next empty =>
    rw [String.isEmpty_iff.mp empty]
    have nothing : validName "" = true := rfl
    exact (and_iff_right nothing).symm
  · have separator : validName "." = true := rfl
    have dot := validName_iff.mp separator
    simp only [validName_iff, String.toList_append, List.forall_mem_append, and_iff_left dot]

/-- A path is accepted when its keys are. -/
theorem validName_foldl (keys : List String) (path : String) :
    validName (keys.foldl extend path) ↔ validName path ∧ ∀ key ∈ keys, validName key := by
  induction keys generalizing path with
  | nil => simp
  | cons key rest ih =>
    rw [List.foldl_cons, ih, validName_extend, List.forall_mem_cons, and_assoc]

theorem accepted_iff {root : YamlNode} :
    ¬Loading.Rejected root ↔ AllKeys (fun key => validName key) root := by
  have empty : validName "" = true := rfl
  simp only [Loading.rejected_iff, not_exists, not_and, Bool.not_eq_false, members,
    List.forall_mem_map, validName_foldl, and_iff_right empty, AllKeys]

namespace Config

/-- A document is loaded, and the same one with its keys in lower case has the same effect. -/
def Insensitive (types : ConfigTypes τ V κ) (s : Config τ V κ) (root : YamlNode) : Prop :=
  ∃ s', s.lodeFromYaml types root = .ok s' ∧ s.lodeFromYaml types root.lowered = .ok s'

theorem not_insensitive {types : ConfigTypes τ V κ} {s : Config τ V κ} {root : YamlNode}
    {path : String} (threw : s.lodeFromYaml types root = .error path) :
    ¬Insensitive types s root := by
  rintro ⟨s', loaded, -⟩
  rw [threw] at loaded
  cases loaded

/-- Only keys that are in lower case already, and without a 9, can be loaded. -/
theorem insensitive_iff (types : ConfigTypes τ V κ) (s : Config τ V κ) {root : YamlNode}
    (text : AllKeys KeyText root) : Insensitive types s root ↔ AllKeys Plain root := by
  -- of the characters that keys have, the alphabet leaves out the capitals and the 9
  have valid_iff : AllKeys (fun key => validName key) root ↔ AllKeys Plain root := by
    refine forall₂_congr fun place member => forall₂_congr fun key inside => ?_
    refine validName_iff.trans ?_
    exact forall₂_congr fun c among => mem_configAlphabet ((text place member key inside).2 c among)
  rw [← valid_iff]
  constructor
  · intro insensitive
    rw [← accepted_iff]
    intro rejected
    obtain ⟨path, threw⟩ := s.lodeFromYaml_of_rejected types rejected
    exact not_insensitive threw insensitive
  · intro valid
    have loaded : s.lodeFromYaml types root = .ok _ :=
      lodeFromYaml_of_accepted (accepted_iff.mpr valid)
    exact ⟨_, loaded, (lowered_of_valid valid).symm ▸ loaded⟩

open ConfigUse (stringTypes)

/-- A configuration of one variable. -/
def served : Config Unit String Unit := (empty.register stringTypes "port" "80" "").2

theorem insensitive_iff_port :
    AllKeys KeyText (.map [("port", .scalar "8080")]) ∧
      (Insensitive stringTypes served (.map [("port", .scalar "8080")]) ↔
        AllKeys Plain (.map [("port", .scalar "8080")])) := by
  have text : AllKeys KeyText (.map [("port", .scalar "8080")]) :=
    allKeys_single (by simp [KeyText])
  exact ⟨text, insensitive_iff stringTypes served text⟩

/-- The variable is set under `port`; under `Port` the document is thrown at, and so is one with
the key `port9`, which is in lower case. -/
theorem capital_key_throws :
    AllKeys KeyText (.map [("Port", .scalar "8080")]) ∧
      (served.lodeFromYaml stringTypes (.map [("port", .scalar "8080")])).map
        (fun s => s.heap.map ConfigVar.val) = .ok ["8080"] ∧
      (YamlNode.map [("Port", .scalar "8080")]).lowered = .map [("port", .scalar "8080")] ∧
      ¬Insensitive stringTypes served (.map [("Port", .scalar "8080")]) ∧
      ¬Insensitive stringTypes served (.map [("port9", .scalar "8080")]) := by
  refine ⟨allKeys_single (by simp [KeyText]), ?_, ?_, ?_, ?_⟩
  · have key : validName "port" = true := rfl
    have accepted : ¬Loading.Rejected (.map [("port", .scalar "8080")]) :=
      accepted_iff.mpr (allKeys_single key)
    rw [lodeFromYaml_of_accepted accepted]
    rfl
  · have lower : toLower "Port" = "port" := by
      rw [toLower, ← String.toList_inj, String.toList_map]
      rfl
    exact congrArg (fun key => YamlNode.map [(key, .scalar "8080")]) lower
  · have threw : served.lodeFromYaml stringTypes (.map [("Port", .scalar "8080")]) =
        .error "Port" := rfl
    exact not_insensitive threw
  · have threw : served.lodeFromYaml stringTypes (.map [("port9", .scalar "8080")]) =
        .error "port9" := rfl
    exact not_insensitive threw

end Config

end Dwframe
