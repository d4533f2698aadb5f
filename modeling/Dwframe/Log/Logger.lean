import Dwframe.Log.Formatter
import Mathlib.Logic.Function.Basic

/-!
# Loggers and the reload listener

`LogIniter` is the listener of the variable `logs`: it merges the old and the new set of
`LogDefine` and brings the loggers in line. A logger is registered under one name and an appender
belongs to one logger, as with the loggers and the appenders the listener makes, so both are held
by value; `insertLogger` is left out. The output side (`log`, `reopen`, `m_root`) is left out too.
-/
namespace Dwframe

/-! ### Appenders and loggers -/

inductive LogAppenderKind where
  | FileoutLogAppender (filename : String)
  | StdoutLogAppender
  deriving DecidableEq, Repr

structure LogAppender where
  kind : LogAppenderKind
  level : Nat
  formatter : Option LogFormatter
  has_formatter : Bool
  deriving DecidableEq, Repr

namespace LogAppender

def new (kind : LogAppenderKind) : LogAppender := ⟨kind, LogLevel.DEBUG.toNat, none, false⟩

def setLevel (appender : LogAppender) (level : Nat) : LogAppender :=
  { appender with level := level }

/-- `setFormatter`: the appender's own formatter. -/
def setFormatter (appender : LogAppender) (val : Option LogFormatter) : LogAppender :=
  { appender with formatter := val, has_formatter := val.isSome }

/-- `SetFormatter`: a formatter the logger lends. -/
def SetFormatter (appender : LogAppender) (val : Option LogFormatter) : LogAppender :=
  { appender with formatter := val }

end LogAppender

structure Logger where
  name : String
  level : Nat
  appenders : List LogAppender
  formatter : Option LogFormatter
  deriving DecidableEq, Repr

namespace Logger

def defaultPattern : String :=
  "[%D{%Y-%m-%d %H:%M:%S}] [T:%N] [%t] [F:%F] [%c]%T[%p]%T[%f: %l]  %T%m %n"

def new (name : String) : Logger := ⟨name, LogLevel.DEBUG.toNat, [], some (.new defaultPattern)⟩

def setLevel (logger : Logger) (val : Nat) : Logger := { logger with level := val }

def clearAppends (logger : Logger) : Logger := { logger with appenders := [] }

def addAppender (logger : Logger) (appender : LogAppender) : Logger :=
  let appender :=
    if appender.formatter.isNone then appender.SetFormatter logger.formatter else appender
  { logger with appenders := logger.appenders ++ [appender] }

/-- `setFormatter` with a formatter; the appenders that have none of their own follow. -/
def setFormatterPtr (logger : Logger) (logFormatter : Option LogFormatter) : Logger :=
  { logger with
    formatter := logFormatter
    appenders := logger.appenders.map fun i =>
      if i.has_formatter then i else i.SetFormatter logFormatter }

/-- `setFormatter` with a pattern; an invalid one is ignored. -/
def setFormatter (logger : Logger) (logFormatter : String) : Logger :=
  let logf := LogFormatter.new logFormatter
  if logf.isError then logger else logger.setFormatterPtr (some logf)

end Logger

/-- `LoggerManager`: `m_loggers`. -/
structure LoggerManager where
  loggers : String → Option Logger

/-- A null pointer is dereferenced. -/
inductive LogFault where
  | nullLogger
  | nullAppender
  deriving DecidableEq, Repr

namespace LoggerManager

/-- The constructor: the root logger writes to the terminal. -/
def new : LoggerManager where
  loggers name :=
    if name = "root" then some ((Logger.new "root").addAppender (.new .StdoutLogAppender))
    else none

/-- `getLogger` makes the logger if there is none; the pointer it returns is the name. -/
def getLogger (m : LoggerManager) (name : String) : String × LoggerManager :=
  match m.loggers name with
  | some _ => (name, m)
  | none => (name, ⟨Function.update m.loggers name (some (.new name))⟩)

/-- A call on a logger through a pointer. -/
def call (m : LoggerManager) (logger : Option String) (f : Logger → Logger) :
    Except LogFault LoggerManager :=
  match logger with
  | none => .error .nullLogger
  | some name => .ok ⟨Function.update m.loggers name ((m.loggers name).map f)⟩

end LoggerManager

/-! ### Definitions -/

structure LogAppenderDefine where
  /-- 1 is a file, 2 is the terminal. -/
  type : Int
  level : LogLevel
  formatter : String
  file : String
  deriving DecidableEq, Repr

structure LogDefine where
  name : String
  level : LogLevel
  formatter : String
  appenders : List LogAppenderDefine
  deriving DecidableEq, Repr

/-- `std::set<LogDefine>`, ordered by name. -/
structure LogDefines where
  defines : List LogDefine
  sorted : defines.Pairwise fun a b => a.name < b.name

namespace LogDefines

/-- `find`, which compares names only. -/
def find (set : LogDefines) (i : LogDefine) : Option LogDefine :=
  set.defines.find? fun d => d.name = i.name

end LogDefines

/-! ### The listener -/

namespace LogIniter

/-- `ap.reset(…)`: the pointer stays null for a type that is neither 1 nor 2. -/
def appenderOf (a : LogAppenderDefine) : Option LogAppender :=
  if a.type = 1 then some (.new (.FileoutLogAppender a.file))
  else if a.type = 2 then some (.new .StdoutLogAppender)
  else none

/-- The appender of a definition, before the logger gets it. -/
def makeAppender (a : LogAppenderDefine) : Except LogFault LogAppender :=
  match appenderOf a with
  | none => .error .nullAppender
  | some ap =>
    let ap := ap.setLevel a.level.toNat
    if a.formatter.isEmpty then .ok ap
    else
      let fmt := LogFormatter.new a.formatter
      if fmt.isError then .ok ap else .ok (ap.setFormatter (some fmt))

/-- The loop over `new_value`, from `setLevel` on. -/
def configure (m : LoggerManager) (logger : Option String) (i : LogDefine) :
    Except LogFault LoggerManager := do
  let m ← m.call logger fun l => l.setLevel i.level.toNat
  let m ←
    if i.formatter.isEmpty then .ok m else m.call logger fun l => l.setFormatter i.formatter
  let m ← m.call logger Logger.clearAppends
  i.appenders.foldlM (fun m a => do
    let ap ← makeAppender a
    m.call logger fun l => l.addAppender ap) m

/-- The body of the loop over `new_value`. -/
def define (old_value : LogDefines) (m : LoggerManager) (i : LogDefine) :
    Except LogFault LoggerManager :=
  match old_value.find i with
  | none =>
    let (logger, m) := m.getLogger i.name
    configure m (some logger) i
  | some it =>
    if i ≠ it then
      let (logger, m) := m.getLogger i.name
      configure m (some logger) i
    else
      -- nothing has been assigned to `logger`
      configure m none i

/-- The body of the loop over `old_value`. -/
def remove (new_value : LogDefines) (m : LoggerManager) (i : LogDefine) :
    Except LogFault LoggerManager :=
  match new_value.find i with
  | some _ => .ok m
  | none => do
    let (logger, m) := m.getLogger i.name
    let m ← m.call (some logger) fun l => l.setLevel 100
    m.call (some logger) Logger.clearAppends

/-- The listener of `g_log_define`. -/
def listener (m : LoggerManager) (old_value new_value : LogDefines) :
    Except LogFault LoggerManager := do
  let m ← new_value.defines.foldlM (define old_value) m
  old_value.defines.foldlM (remove new_value) m

end LogIniter

end Dwframe
