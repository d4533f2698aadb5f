import Dwframe.Config.Yaml
import Dwframe.Lib.Monad
import Dwframe.Lib.SortedMap
import Mathlib.Data.String.Basic

/-!
# The codec of `TcpServerConf`

The conversions of the variable `servers`. The arguments have a codec of their own: they are
printed and loaded again to become a member of the tree, and read back from the text of that
member.
-/
namespace Dwframe

open Lib

structure TcpServerConf where
  address : List String := []
  keepalive : Int := 0
  timeout : Int := 1000 * 2 * 60
  ssl : Int := 0
  id : String := ""
  type : String := "http"
  name : String := ""
  cert_file : String := ""
  key_file : String := ""
  accept_worker : String := ""
  io_worker : String := ""
  process_worker : String := ""
  args : SortedMap String String := .empty

namespace TcpServerConf

/-- The node that `LexicalCast<std::map<std::string, T>, std::string>` prints; without an entry it
stays null. -/
def argsNode (yaml : YamlCpp) (args : SortedMap String String) : Except YamlFault YamlNode := do
  let entries ← args.entries.mapM fun i => do
    let node ← yaml.loadNode i.2
    .ok (i.1, node)
  .ok (if entries.isEmpty then .null else .map entries)

/-- `LexicalCast<std::string, std::map<std::string, T>>`; the items of a sequence have no key. -/
def decodeArgs (yaml : YamlCpp) (v : String) : Except YamlFault (SortedMap String String) := do
  match ← yaml.loadNode v with
  | .map entries => .ok (entries.foldl (fun args it => args.insert it.1 (yaml.emit it.2)) .empty)
  | .sequence (_ :: _) => .error .invalidNode
  | .sequence [] | .null | .scalar _ => .ok .empty

/-- The members of a configuration, with the node of its arguments. -/
def members (yaml : YamlCpp) (conf : TcpServerConf) (args : YamlNode) : YamlNode :=
  .map ([("id", .scalar conf.id), ("type", .scalar conf.type), ("name", .scalar conf.name),
    ("keepalive", .scalar (yaml.ofInt conf.keepalive)),
    ("timeout", .scalar (yaml.ofInt conf.timeout)), ("ssl", .scalar (yaml.ofInt conf.ssl)),
    ("cert_file", .scalar conf.cert_file), ("key_file", .scalar conf.key_file),
    ("accept_worker", .scalar conf.accept_worker), ("io_worker", .scalar conf.io_worker),
    ("process_worker", .scalar conf.process_worker), ("args", args)] ++
    (if conf.address.isEmpty then []
      else [("address", .sequence (conf.address.map YamlNode.scalar))]))

/-- The node that `LexicalCast<TcpServerConf, std::string>` prints. -/
def toNode (yaml : YamlCpp) (conf : TcpServerConf) : Except YamlFault YamlNode := do
  let args ← yaml.loadNode (yaml.emit (← argsNode yaml conf.args))
  .ok (conf.members yaml args)

/-- `LexicalCast<TcpServerConf, std::string>`. -/
def encode (yaml : YamlCpp) (conf : TcpServerConf) : Except YamlFault String := do
  let node ← conf.toNode yaml
  .ok (yaml.emit node)

/-- `as<std::string>()` of a member. -/
def require (node : Option YamlNode) : Except YamlFault String :=
  match node with
  | some node => node.asString
  | none => .error .badConversion

def ofNode (yaml : YamlCpp) (node : YamlNode) : Except YamlFault TcpServerConf := do
  let conf : TcpServerConf := {}
  let id := YamlNode.asStringOr (← node.member "id") conf.id
  let type := YamlNode.asStringOr (← node.member "type") conf.type
  let keepalive := YamlNode.asIntOr yaml (← node.member "keepalive") conf.keepalive
  let timeout := YamlNode.asIntOr yaml (← node.member "timeout") conf.timeout
  let name := YamlNode.asStringOr (← node.member "name") conf.name
  let ssl := YamlNode.asIntOr yaml (← node.member "ssl") conf.ssl
  let cert_file := YamlNode.asStringOr (← node.member "cert_file") conf.cert_file
  let key_file := YamlNode.asStringOr (← node.member "key_file") conf.key_file
  let accept_worker ← require (← node.member "accept_worker")
  let io_worker ← require (← node.member "io_worker")
  let process_worker ← require (← node.member "process_worker")
  let args ← decodeArgs yaml (YamlNode.asStringOr (← node.member "args") "")
  let address ← (((← node.member "address").map YamlNode.elements).getD []).mapM require
  .ok { address, keepalive, timeout, ssl, id, type, name, cert_file, key_file, accept_worker,
        io_worker, process_worker, args }

/-- `LexicalCast<std::string, TcpServerConf>`. -/
def decode (yaml : YamlCpp) (v : String) : Except YamlFault TcpServerConf := do
  let node ← yaml.loadNode v
  ofNode yaml node

/-! ### What comes back -/

section RoundTrip

variable {yaml : YamlCpp} {conf : TcpServerConf}

private theorem mapM_require (texts : List String) :
    (texts.map fun text => some (YamlNode.scalar text)).mapM require = .ok texts := by
  induction texts with
  | nil => rfl
  | cons text rest ih =>
    rw [List.map_cons, List.mapM_cons, ih]
    rfl

theorem member_address (args : YamlNode) :
    ∃ node, (conf.members yaml args).member "address" = .ok node ∧
      ((node.map YamlNode.elements).getD []).mapM require = .ok conf.address := by
  by_cases none : conf.address = []
  · refine ⟨.none, by simp [members, YamlNode.member, none], ?_⟩
    rw [none]
    rfl
  · refine ⟨some (.sequence (conf.address.map YamlNode.scalar)), ?_, ?_⟩
    · simp [members, YamlNode.member, none]
    · have read := mapM_require conf.address
      simpa [YamlNode.elements, Function.comp_def] using read

/-- Every member comes back as it was, but for the arguments. -/
theorem ofNode_members
    (ints : ∀ i ∈ [conf.keepalive, conf.timeout, conf.ssl], yaml.asInt (yaml.ofInt i) = some i)
    (args : YamlNode) :
    ofNode yaml (conf.members yaml args) =
      (decodeArgs yaml (YamlNode.asStringOr (some args) "")).map fun args =>
        { conf with args := args } := by
  obtain ⟨node, address, read⟩ := @member_address yaml conf args
  obtain ⟨keepalive, timeout, ssl⟩ : yaml.asInt (yaml.ofInt conf.keepalive) = some conf.keepalive ∧
      yaml.asInt (yaml.ofInt conf.timeout) = some conf.timeout ∧
      yaml.asInt (yaml.ofInt conf.ssl) = some conf.ssl := by simpa using ints
  simp only [ofNode, address, read, bind, Except.bind]
  simp only [members, YamlNode.member, List.cons_append, List.find?_cons, List.nil_append]
  simp [YamlNode.asStringOr, YamlNode.asIntOr, require, YamlNode.asString, keepalive, timeout, ssl]
  cases decodeArgs yaml (YamlNode.asStringOr (some args) "") <;> rfl

/-- Arguments that are there are printed as a map. -/
theorem argsNode_cons {args : SortedMap String String} {entry : String × String}
    {rest : List (String × String)} (held : args.entries = entry :: rest) {node : YamlNode}
    (printed : argsNode yaml args = .ok node) : ∃ entries, node = .map entries := by
  obtain ⟨entries, loaded, shown⟩ := bind_eq_ok.mp printed
  rw [held, List.mapM_cons] at loaded
  obtain ⟨first, -, loaded⟩ := bind_eq_ok.mp loaded
  obtain ⟨others, -, whole⟩ := bind_eq_ok.mp loaded
  cases whole
  cases shown
  exact ⟨first :: others, rfl⟩

/-- With a printer and a loader that agree on the trees at hand, a configuration comes back
exactly when it has no arguments. -/
theorem decode_encode_conf_iff (yaml : YamlCpp) (conf : TcpServerConf)
    (ints : ∀ i ∈ [conf.keepalive, conf.timeout, conf.ssl], yaml.asInt (yaml.ofInt i) = some i)
    (empty : yaml.load "" = some .null)
    (args_reload : ∀ node, argsNode yaml conf.args = .ok node →
      yaml.load (yaml.emit node) = some node)
    (reloads : ∀ node, conf.toNode yaml = .ok node → yaml.load (yaml.emit node) = some node) :
    (conf.encode yaml >>= decode yaml) = .ok conf ↔ conf.args = .empty := by
  -- the text read for the arguments is empty, whether they are a map or null
  have decoded : ∀ node, argsNode yaml conf.args = .ok node →
      YamlNode.asStringOr (some node) "" = "" →
      (conf.encode yaml >>= decode yaml) = .ok { conf with args := .empty } := by
    intro node printed text
    have tree : conf.toNode yaml = .ok (conf.members yaml node) := by
      simp only [toNode, printed, YamlCpp.loadNode, args_reload node printed, bind, Except.bind]
    simp only [encode, decode, tree, YamlCpp.loadNode, reloads _ tree, bind, Except.bind,
      ofNode_members ints, text, decodeArgs, empty, Except.map]
  cases held : conf.args.entries with
  | nil =>
    have none : conf.args = .empty := SortedMap.ext held
    have printed : argsNode yaml conf.args = .ok .null := by
      simp [argsNode, held, bind, Except.bind, pure, Except.pure]
    rw [decoded _ printed rfl, none]
    simp only [iff_true]
    rw [← none]
  | cons entry rest =>
    have some : conf.args ≠ .empty := by
      intro none
      rw [none] at held
      cases held
    simp only [some, iff_false]
    intro same
    cases printed : argsNode yaml conf.args with
    | error fault => simp [encode, toNode, printed, bind, Except.bind] at same
    | ok node =>
      -- a map is no scalar, so the text read for it is the fallback
      obtain ⟨entries, rfl⟩ := argsNode_cons held printed
      rw [decoded _ printed rfl] at same
      have lost := congrArg TcpServerConf.args (Except.ok.inj same)
      exact some lost.symm

end RoundTrip

/-- yaml-cpp on one configuration, with `a: b` as the only arguments it may have. -/
def sampleYaml (tree : YamlNode) (text : String) : YamlCpp where
  emit
    | .null => "~"
    | .map [("a", .scalar "b")] => "a: b"
    | _ => text
  load read :=
    if read = "" ∨ read = "~" then some .null
    else if read = "b" then some (.scalar "b")
    else if read = "a: b" then some (.map [("a", .scalar "b")])
    else if read = text then some tree
    else none
  ofInt i := if i = 0 then "0" else "120000"
  asInt read := if read = "0" then some 0 else if read = "120000" then some 120000 else none

/-- A configuration with these arguments, its tree and the text of the tree. -/
def sample (args : SortedMap String String) : TcpServerConf :=
  { address := ["0.0.0.0:8020"], name := "web", args := args }

def sampleTree (args : YamlNode) : YamlNode :=
  (sample .empty).members (sampleYaml .null "") args

def sampleText (args : String) : String :=
  "id: \"\"\ntype: http\nname: web\nkeepalive: 0\ntimeout: 120000\nssl: 0\ncert_file: \"\"\n" ++
    "key_file: \"\"\naccept_worker: \"\"\nio_worker: \"\"\nprocess_worker: \"\"\nargs:" ++
    args ++ "\naddress:\n  - 0.0.0.0:8020"

set_option maxRecDepth 4000 in
theorem decode_encode_conf_iff_without_args :
    ((sample .empty).encode (sampleYaml (sampleTree .null) (sampleText " ~")) >>=
      decode (sampleYaml (sampleTree .null) (sampleText " ~"))) = .ok (sample .empty) := by
  refine (decode_encode_conf_iff _ _ (by decide) rfl ?_ ?_).mpr rfl
  · intro node printed
    cases printed
    rfl
  · intro node printed
    cases printed
    rfl

set_option maxRecDepth 4000 in
/-- The argument `a: b` does not come back. -/
theorem args_lost :
    ∃ (yaml : YamlCpp) (conf : TcpServerConf),
      (∀ i ∈ [conf.keepalive, conf.timeout, conf.ssl], yaml.asInt (yaml.ofInt i) = some i) ∧
      yaml.load "" = some .null ∧
      (∀ node, argsNode yaml conf.args = .ok node → yaml.load (yaml.emit node) = some node) ∧
      (∀ node, conf.toNode yaml = .ok node → yaml.load (yaml.emit node) = some node) ∧
      (conf.encode yaml >>= decode yaml) ≠ .ok conf := by
  let tree := sampleTree (.map [("a", .scalar "b")])
  let conf := sample (.insert .empty "a" "b")
  have decoded : (conf.encode (sampleYaml tree (sampleText "\n  a: b")) >>=
      decode (sampleYaml tree (sampleText "\n  a: b"))) = .ok (sample .empty) := rfl
  refine ⟨sampleYaml tree (sampleText "\n  a: b"), conf, by decide, rfl, ?_, ?_, ?_⟩
  · intro node printed
    cases printed
    rfl
  · intro node printed
    cases printed
    rfl
  · rw [decoded]
    intro same
    have lost := congrArg (fun conf => conf.args.entries.length) (Except.ok.inj same)
    cases lost

end TcpServerConf

end Dwframe
