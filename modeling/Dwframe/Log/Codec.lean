import Dwframe.Config.Yaml
import Dwframe.Log.Logger

/-!
# The codec of `LogDefine`

The encoder leaves out a level that is `UNKNOW`, an empty formatter and the file of an appender
that writes to the terminal; the decoder gives an appender without a level the level of its
logger. `settled` is what comes back.
-/
namespace Dwframe

namespace LogAppenderDefine

/-- The node `na` of an appender; without a member it stays null. -/
def toNode (a : LogAppenderDefine) : YamlNode :=
  let entries :=
    (if a.type = 1 then
      [("type", .scalar "FileLogAppender"), ("file", .scalar a.file)]
    else if a.type = 2 then [("type", .scalar "StdoutLogAppender")]
    else []) ++
    (if a.level ≠ .UNKNOW then [("level", .scalar a.level.toString)] else []) ++
    (if a.formatter.isEmpty then [] else [("formatter", .scalar a.formatter)])
  if entries.isEmpty then .null else .map entries

/-- One round of the loop over `n["appenders"]`; `none` is a `continue`. -/
def ofNode (loggerLevel : LogLevel) (node : Option YamlNode) :
    Except YamlFault (Option LogAppenderDefine) := do
  let a := node.getD .null
  let some typeNode ← a.member "type" | .ok none
  let type ← typeNode.asString
  let formatterNode ← a.member "formatter"
  if type = "FileLogAppender" then
    let some fileNode ← a.member "file" | .ok none
    let file ← fileNode.asString
    let formatter ← (formatterNode.map YamlNode.asString).getD (.ok "")
    let level ← levelOf a
    .ok (some ⟨1, level, formatter, file⟩)
  else if type = "StdoutLogAppender" then
    let formatter ← (formatterNode.map YamlNode.asString).getD (.ok "")
    let level ← levelOf a
    .ok (some ⟨2, level, formatter, ""⟩)
  else .ok none
where
  levelOf (a : YamlNode) : Except YamlFault LogLevel := do
    match ← a.member "level" with
    | some level => do .ok (.fromString (← level.asString))
    | none => .ok loggerLevel

end LogAppenderDefine

namespace LogDefine

/-- The node `n` that `LexicalCast<LogDefine, std::string>` prints. -/
def toNode (i : LogDefine) : YamlNode :=
  .map ([("name", .scalar i.name)] ++
    (if i.level ≠ .UNKNOW then [("level", .scalar i.level.toString)] else []) ++
    (if i.formatter.isEmpty then [] else [("formatter", .scalar i.formatter)]) ++
    (if i.appenders.isEmpty then []
      else [("appenders", .sequence (i.appenders.map LogAppenderDefine.toNode))]))

/-- `LexicalCast<LogDefine, std::string>`. -/
def encode (yaml : YamlCpp) (i : LogDefine) : String := yaml.emit i.toNode

def ofNode (n : YamlNode) : Except YamlFault LogDefine := do
  let some nameNode ← n.member "name" | .error (.logicError "log config name is null")
  let name ← nameNode.asString
  let level ← ((← n.member "level").map YamlNode.asString).getD (.ok "")
  let formatter ← ((← n.member "formatter").map YamlNode.asString).getD (.ok "")
  let elements := ((← n.member "appenders").map YamlNode.elements).getD []
  let appenders ← elements.mapM (LogAppenderDefine.ofNode (.fromString level))
  .ok ⟨name, .fromString level, formatter, appenders.filterMap id⟩

/-- `LexicalCast<std::string, LogDefine>`. -/
def decode (yaml : YamlCpp) (v : String) : Except YamlFault LogDefine := do
  let n ← yaml.loadNode v
  ofNode n

end LogDefine

/-! ### What comes back -/

/-- An appender after it was encoded and decoded in a logger of that level. -/
def LogAppenderDefine.settled (loggerLevel : LogLevel) (a : LogAppenderDefine) :
    LogAppenderDefine :=
  { a with
    level := if a.level = .UNKNOW then loggerLevel else a.level
    file := if a.type = 1 then a.file else "" }

theorem LogAppenderDefine.ofNode_toNode (loggerLevel : LogLevel) (a : LogAppenderDefine)
    (typed : a.type = 1 ∨ a.type = 2) :
    ofNode loggerLevel (some a.toNode) = .ok (some (a.settled loggerLevel)) := by
  obtain ⟨type, level, formatter, file⟩ := a
  simp only at typed
  -- each member is there or left out; a member left out is read as its default
  rcases typed with rfl | rfl <;> by_cases unknown : level = .UNKNOW <;>
    by_cases empty : formatter = "" <;>
    simp [ofNode, ofNode.levelOf, toNode, settled, YamlNode.member, YamlNode.asString, bind,
      Except.bind, LogLevel.fromString_toString, unknown, empty]

private theorem mapM_ofNode (loggerLevel : LogLevel) (appenders : List LogAppenderDefine)
    (typed : ∀ a ∈ appenders, a.type = 1 ∨ a.type = 2) :
    (appenders.map fun a => some a.toNode).mapM (LogAppenderDefine.ofNode loggerLevel) =
      .ok (appenders.map fun a => some (a.settled loggerLevel)) := by
  induction appenders with
  | nil => rfl
  | cons a rest ih =>
    rw [List.map_cons, List.mapM_cons, a.ofNode_toNode loggerLevel (typed a List.mem_cons_self),
      ih fun b member => typed b (List.mem_cons_of_mem _ member)]
    rfl

namespace LogDefine

theorem member_name (d : LogDefine) : d.toNode.member "name" = .ok (some (.scalar d.name)) := by
  simp [toNode, YamlNode.member]

theorem member_level (d : LogDefine) : ∃ node, d.toNode.member "level" = .ok node ∧
    ∃ text, (node.map YamlNode.asString).getD (.ok "") = .ok text ∧
      LogLevel.fromString text = d.level := by
  by_cases unknown : d.level = .UNKNOW
  · refine ⟨none, ?_, "", rfl, by rw [unknown]; rfl⟩
    by_cases empty : d.formatter = "" <;> by_cases none : d.appenders = [] <;>
      simp [toNode, YamlNode.member, unknown, empty, none]
  · refine ⟨some (.scalar d.level.toString), ?_, _, rfl, LogLevel.fromString_toString _⟩
    simp [toNode, YamlNode.member, unknown]

theorem member_formatter (d : LogDefine) : ∃ node, d.toNode.member "formatter" = .ok node ∧
    (node.map YamlNode.asString).getD (.ok "") = .ok d.formatter := by
  by_cases empty : d.formatter = ""
  · refine ⟨none, ?_, by rw [empty]; rfl⟩
    by_cases unknown : d.level = .UNKNOW <;> by_cases none : d.appenders = [] <;>
      simp [toNode, YamlNode.member, unknown, empty, none]
  · refine ⟨some (.scalar d.formatter), ?_, rfl⟩
    by_cases unknown : d.level = .UNKNOW <;> simp [toNode, YamlNode.member, unknown, empty]

theorem member_appenders (d : LogDefine) : ∃ node, d.toNode.member "appenders" = .ok node ∧
    (node.map YamlNode.elements).getD [] = d.appenders.map fun a => some a.toNode := by
  by_cases none : d.appenders = []
  · refine ⟨.none, ?_, by rw [none]; rfl⟩
    by_cases unknown : d.level = .UNKNOW <;> by_cases empty : d.formatter = "" <;>
      simp [toNode, YamlNode.member, unknown, empty, none]
  · refine ⟨some (.sequence (d.appenders.map LogAppenderDefine.toNode)), ?_, ?_⟩
    · by_cases unknown : d.level = .UNKNOW <;> by_cases empty : d.formatter = "" <;>
        simp [toNode, YamlNode.member, unknown, empty, none]
    · simp [YamlNode.elements]

/-- The decoder on what the encoder makes. -/
theorem ofNode_toNode (d : LogDefine) (typed : ∀ a ∈ d.appenders, a.type = 1 ∨ a.type = 2) :
    ofNode d.toNode =
      .ok { d with appenders := d.appenders.map (LogAppenderDefine.settled d.level) } := by
  -- each member as the decoder reads it, whichever of the others are left out
  obtain ⟨levelNode, level, text, levelText, levelRead⟩ := d.member_level
  obtain ⟨formatterNode, formatter, formatterRead⟩ := d.member_formatter
  obtain ⟨appendersNode, appenders, elements⟩ := d.member_appenders
  have read := mapM_ofNode d.level d.appenders typed
  simp only [ofNode, d.member_name, level, formatter, appenders, YamlNode.asString, levelText,
    formatterRead, elements, levelRead, read, bind, Except.bind]
  simp [List.filterMap_map]

/-- An appender is unchanged when nothing that is left out has to come back. -/
theorem settled_eq_iff {loggerLevel : LogLevel} {a : LogAppenderDefine}
    (typed : a.type = 1 ∨ a.type = 2) :
    a.settled loggerLevel = a ↔
      (a.type = 2 → a.file = "") ∧ (a.level = .UNKNOW → loggerLevel = .UNKNOW) := by
  obtain ⟨type, level, formatter, file⟩ := a
  simp only at typed
  rcases typed with rfl | rfl
  · by_cases unknown : level = .UNKNOW
    · simp [LogAppenderDefine.settled, unknown]
    · simp [LogAppenderDefine.settled, unknown]
  · by_cases unknown : level = .UNKNOW
    · simp [LogAppenderDefine.settled, unknown, eq_comm, and_comm]
    · simp [LogAppenderDefine.settled, unknown, eq_comm]

/-- With a printer and a loader that agree on the tree at hand, a definition comes back exactly
when no terminal appender has a file, and no appender of unknown level is in a logger of a known
one. -/
theorem decode_encode_iff (yaml : YamlCpp) (d : LogDefine)
    (typed : ∀ a ∈ d.appenders, a.type = 1 ∨ a.type = 2)
    (reloads : yaml.load (yaml.emit d.toNode) = some d.toNode) :
    decode yaml (encode yaml d) = .ok d ↔
      ∀ a ∈ d.appenders, (a.type = 2 → a.file = "") ∧
        (a.level = .UNKNOW → d.level = .UNKNOW) := by
  have decoded : decode yaml (encode yaml d) =
      .ok { d with appenders := d.appenders.map (LogAppenderDefine.settled d.level) } := by
    rw [← ofNode_toNode d typed]
    simp only [decode, encode, YamlCpp.loadNode, reloads, bind, Except.bind]
  have fields : decode yaml (encode yaml d) = .ok d ↔
      d.appenders.map (LogAppenderDefine.settled d.level) = d.appenders := by
    rw [decoded]
    obtain ⟨name, level, formatter, appenders⟩ := d
    simp
  -- the appenders come back one by one, so they are compared one by one
  have pointwise : d.appenders.map (LogAppenderDefine.settled d.level) = d.appenders.map id ↔
      ∀ a ∈ d.appenders, a.settled d.level = a := List.map_inj_left
  rw [List.map_id] at pointwise
  rw [fields, pointwise]
  apply forall₂_congr
  intro a member
  exact settled_eq_iff (typed a member)

/-- A logger with a file and the terminal. -/
def webDefine : LogDefine :=
  ⟨"web", .INFO, "%m%n", [⟨1, .ERROR, "", "web.log"⟩, ⟨2, .INFO, "%p %m%n", ""⟩]⟩

def webText : String :=
  "name: web\nlevel: INFO\nformatter: \"%m%n\"\n" ++
    "appenders:\n  - type: FileLogAppender\n    file: web.log\n    level: ERROR\n" ++
    "  - type: StdoutLogAppender\n    level: INFO\n    formatter: \"%p %m%n\""

/-- yaml-cpp on one tree and its text. -/
def printing (node : YamlNode) (text : String) : YamlCpp where
  emit _ := text
  load read := if read = text then some node else none
  ofInt := toString
  asInt _ := none

theorem printing_reloads (node : YamlNode) (text : String) :
    (printing node text).load ((printing node text).emit node) = some node :=
  if_pos rfl

theorem decode_encode_iff_web :
    decode (printing webDefine.toNode webText) (encode (printing webDefine.toNode webText)
      webDefine) = .ok webDefine :=
  (decode_encode_iff _ webDefine (by decide) (printing_reloads _ _)).mpr (by decide)

/-- An appender of unknown level comes back with the level of its logger, and a terminal appender
with a file without it. -/
theorem left_out_fields_lost :
    (∃ (yaml : YamlCpp) (d : LogDefine), (∀ a ∈ d.appenders, a.type = 1 ∨ a.type = 2) ∧
      yaml.load (yaml.emit d.toNode) = some d.toNode ∧
      decode yaml (encode yaml d) = .ok ⟨"web", .INFO, "", [⟨2, .INFO, "", ""⟩]⟩ ∧
      decode yaml (encode yaml d) ≠ .ok d) ∧
    ∃ (yaml : YamlCpp) (d : LogDefine), (∀ a ∈ d.appenders, a.type = 1 ∨ a.type = 2) ∧
      yaml.load (yaml.emit d.toNode) = some d.toNode ∧
      decode yaml (encode yaml d) = .ok ⟨"web", .INFO, "", [⟨2, .INFO, "", ""⟩]⟩ ∧
      decode yaml (encode yaml d) ≠ .ok d := by
  let unknown : LogDefine := ⟨"web", .INFO, "", [⟨2, .UNKNOW, "", ""⟩]⟩
  let unknownText := "name: web\nlevel: INFO\nappenders:\n  - type: StdoutLogAppender"
  have decoded : decode (printing unknown.toNode unknownText)
      (encode (printing unknown.toNode unknownText) unknown) =
      .ok ⟨"web", .INFO, "", [⟨2, .INFO, "", ""⟩]⟩ := rfl
  let filed : LogDefine := ⟨"web", .INFO, "", [⟨2, .INFO, "", "web.log"⟩]⟩
  let filedText := unknownText ++ "\n    level: INFO"
  have decoded' : decode (printing filed.toNode filedText)
      (encode (printing filed.toNode filedText) filed) =
      .ok ⟨"web", .INFO, "", [⟨2, .INFO, "", ""⟩]⟩ := rfl
  constructor
  · refine ⟨printing unknown.toNode unknownText, unknown, by decide, printing_reloads _ _,
      decoded, ?_⟩
    rw [decoded]
    simp [unknown]
  · refine ⟨printing filed.toNode filedText, filed, by decide, printing_reloads _ _, decoded', ?_⟩
    rw [decoded']
    simp [filed]

end LogDefine

end Dwframe
