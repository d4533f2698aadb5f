import Dwframe.Config.Model

/-!
# Reading and printing YAML trees

What the conversions of the configuration use of yaml-cpp. Printing a tree, loading a text and
the text of an `int` are parameters; looking into a tree is not.
-/
namespace Dwframe

/-- The exceptions a conversion throws. -/
inductive YamlFault where
  /-- `YAML::Load` does not accept the text. -/
  | parser
  /-- A member of a scalar is asked for. -/
  | badSubscript
  /-- A node is not of the type asked for. -/
  | badConversion
  /-- A node that does not exist is used. -/
  | invalidNode
  /-- `std::logic_error` with its text. -/
  | logicError (what : String)
  deriving DecidableEq, Repr

/-- yaml-cpp: `ss << node`, `YAML::Load`, and the scalar of an `int` and back. -/
structure YamlCpp where
  emit : YamlNode → String
  load : String → Option YamlNode
  ofInt : Int → String
  asInt : String → Option Int

namespace YamlCpp

def loadNode (yaml : YamlCpp) (text : String) : Except YamlFault YamlNode :=
  match yaml.load text with
  | some node => .ok node
  | none => .error .parser

end YamlCpp

namespace YamlNode

/-- `node[key]` with a string key; `none` is a node that is not defined. -/
def member (node : YamlNode) (key : String) : Except YamlFault (Option YamlNode) :=
  match node with
  | .scalar _ => .error .badSubscript
  | .map entries => .ok ((entries.find? fun entry => entry.1 = key).map Prod.snd)
  | .null | .sequence _ => .ok none

/-- `node[x]` for every `x` below `node.size()`; a map is asked for numbers as keys. -/
def elements : YamlNode → List (Option YamlNode)
  | .sequence items => items.map some
  | .map entries => (List.range entries.length).map fun x =>
    (entries.find? fun entry => entry.1 = toString x).map Prod.snd
  | .null | .scalar _ => []

/-- `as<std::string>()`. -/
def asString : YamlNode → Except YamlFault String
  | .scalar text => .ok text
  | _ => .error .badConversion

/-- `as<std::string>(fallback)`. -/
def asStringOr (node : Option YamlNode) (fallback : String) : String :=
  match node with
  | some (.scalar text) => text
  | _ => fallback

/-- `as<int>(fallback)`. -/
def asIntOr (yaml : YamlCpp) (node : Option YamlNode) (fallback : Int) : Int :=
  match node with
  | some (.scalar text) => (yaml.asInt text).getD fallback
  | _ => fallback

end YamlNode

end Dwframe
