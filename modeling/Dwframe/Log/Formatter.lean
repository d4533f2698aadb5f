import Mathlib.Data.List.Basic

/-!
# Log levels and formatters

`LogFormatter` parses its pattern once, when it is made: `init` cuts it into texts and
directives and sets `error` for a directive it does not know and for a format that is not
closed. A `std::string` is a `String` whose characters stand for its bytes.
-/
namespace Dwframe

/-- `LogLevel::Level`. -/
inductive LogLevel where
  | UNKNOW | DEBUG | INFO | WARN | ERROR | FATAL
  deriving DecidableEq, Repr

namespace LogLevel

/-- The number behind a level. -/
def toNat : LogLevel → Nat
  | .UNKNOW => 0
  | .DEBUG => 1
  | .INFO => 2
  | .WARN => 3
  | .ERROR => 4
  | .FATAL => 5

def toString : LogLevel → String
  | .DEBUG => "DEBUG"
  | .INFO => "INFO"
  | .WARN => "WARN"
  | .ERROR => "ERROR"
  | .FATAL => "FATAL"
  | .UNKNOW => "UNKNOW"

def fromString (str : String) : LogLevel :=
  if str = "debug" then .DEBUG
  else if str = "info" then .INFO
  else if str = "warn" then .WARN
  else if str = "error" then .ERROR
  else if str = "fatal" then .FATAL
  else if str = "DEBUG" then .DEBUG
  else if str = "INFO" then .INFO
  else if str = "WARN" then .WARN
  else if str = "ERROR" then .ERROR
  else if str = "FATAL" then .FATAL
  else .UNKNOW

/-- Every level is read back from its name, the unknown one included. -/
theorem fromString_toString (level : LogLevel) : fromString level.toString = level := by
  cases level <;> decide

end LogLevel

/-- The classes of `s_format_items`. -/
inductive FormatItemKind where
  | message | level | elapse | name | threadId | newLine | dateTime | fileName | line | tab
  | fiberId | datemTime | threadName
  deriving DecidableEq, Repr

/-- `LogFormatter::FormatItem`: a text, or a directive with its format. -/
inductive FormatItem where
  | string (str : String)
  | item (kind : FormatItemKind) (fmt : String)
  deriving DecidableEq, Repr

/-- `s_format_items`. -/
def formatItems : List (String × FormatItemKind) :=
  [("m", .message), ("p", .level), ("r", .elapse), ("c", .name), ("t", .threadId),
    ("n", .newLine), ("d", .dateTime), ("f", .fileName), ("l", .line), ("T", .tab),
    ("F", .fiberId), ("D", .datemTime), ("N", .threadName)]

/-- An entry of `vec`: a text, or a directive with its name and its format. -/
inductive PatternPart where
  | text (str : String)
  | directive (str fmt : String)
  deriving DecidableEq, Repr

structure LogFormatter where
  pattern : String
  items : List FormatItem
  error : Bool
  deriving DecidableEq, Repr

namespace LogFormatter

/-- The inner loop from `{` on: the format and what is behind `}`, if there is one. -/
def scanFormat : List Char → List Char → Option (String × List Char)
  | [], _ => none
  | c :: rest, fmt =>
    if c = '}' then some (String.ofList fmt, rest) else scanFormat rest (fmt ++ [c])

/-- The inner loop behind a `%`: the directive and what is behind it, unless a format is not
closed. A `}` outside a format counts as a letter. -/
def scanDirective : List Char → List Char → Option (String × String × List Char)
  | [], str => some (String.ofList str, "", [])
  | c :: rest, str =>
    if c = '{' then
      (scanFormat rest []).map fun (fmt, behind) => (String.ofList str, fmt, behind)
    else if c.isAlpha ∨ c = '}' then scanDirective rest (str ++ [c])
    else some (String.ofList str, "", c :: rest)

/-- `vec.push_back` of the text read so far, unless it is empty. -/
def flush (nstr : List Char) : List PatternPart :=
  if nstr.isEmpty then [] else [.text (String.ofList nstr)]

/-- The outer loop; the fuel is the number of characters left at the start. After a format that
is not closed it goes on behind the `%`, and the text read before is pushed later. -/
def scan : Nat → List Char → List Char → List PatternPart × Bool
  | 0, _, nstr => (flush nstr, false)
  | _ + 1, [], nstr => (flush nstr, false)
  | fuel + 1, c :: rest, nstr =>
    if c ≠ '%' then scan fuel rest (nstr ++ [c])
    else if rest.head? = some '%' then scan fuel rest.tail (nstr ++ ['%'])
    else
      match scanDirective rest [] with
      | some (str, fmt, behind) =>
        let (vec, error) := scan fuel behind []
        (flush nstr ++ .directive str fmt :: vec, error)
      | none =>
        let (vec, _) := scan fuel rest nstr
        (.text "<<pattern_error>>" :: vec, true)

/-- The item of a part, and whether the directive is unknown. -/
def itemOf : PatternPart → FormatItem × Bool
  | .text str => (.string str, false)
  | .directive str fmt =>
    match formatItems.find? fun entry => entry.1 = str with
    | some entry => (.item entry.2 fmt, false)
    | none => (.string ("<<error_format %" ++ str ++ ">>"), true)

/-- The constructor, with `init`. -/
def new (pattern : String) : LogFormatter :=
  let (vec, error) := scan pattern.length pattern.toList []
  let items := vec.map itemOf
  ⟨pattern, items.map Prod.fst, error || items.any Prod.snd⟩

def isError (formatter : LogFormatter) : Bool := formatter.error

@[simp] theorem new_pattern (pattern : String) : (new pattern).pattern = pattern := rfl

end LogFormatter

end Dwframe
