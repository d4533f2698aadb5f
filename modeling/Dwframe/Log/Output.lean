import Dwframe.Log.Appenders
import Dwframe.Log.History
import Dwframe.Log.Pattern

/-!
# What a log statement writes

The items of a formatter print the event one after the other; an appender writes that text if the
level is high enough for it, and a logger without appenders hands the event to the root logger.
`strftime` with the local time is a parameter. It fills a buffer of 64 bytes: of a longer date
nothing is known, and the text is `none`.
-/
namespace Dwframe

open Lib

/-- `LogEvent`; `logger` is the name of its logger. -/
structure LogEvent where
  file : String
  line : Int
  elapse : Nat
  threadid : Nat
  fiberid : Nat
  time : Nat
  mtime : Int
  content : String
  logger : String
  thread_name : String
  deriving DecidableEq, Repr

section

variable (strftime : String → Nat → String)

/-! ### Items -/

/-- The date of `DateTimeFormatItem` and `DatemTimeFormatItem`. -/
def strtime (fmt : String) (time : Nat) : Option String :=
  let m_format := if fmt.isEmpty then "%Y-%m-%d %H:%M:%S" else fmt
  let text := strftime m_format time
  if text.length < 64 then some text else none

/-- The milliseconds of `DatemTimeFormatItem`. -/
def millis (mtime : Int) : String :=
  if mtime < 100 ∧ mtime ≥ 10 then ":0" ++ toString mtime
  else if mtime < 10 then ":00" ++ toString mtime
  else ":" ++ toString mtime

namespace FormatItem

/-- `format` of the classes of `s_format_items`. -/
def format (level : LogLevel) (event : LogEvent) : FormatItem → Option String
  | .string str => some str
  | .item .message _ => some event.content
  | .item .level _ => some level.toString
  | .item .elapse _ => some (toString event.elapse)
  | .item .name _ => some event.logger
  | .item .threadId _ => some (toString event.threadid)
  | .item .newLine _ => some "\n"
  | .item .dateTime fmt => strtime strftime fmt event.time
  | .item .fileName _ => some event.file
  | .item .line _ => some (toString event.line)
  | .item .tab _ => some "\t"
  | .item .fiberId _ => some (toString event.fiberid)
  | .item .datemTime fmt => (strtime strftime fmt event.time).map (· ++ millis event.mtime)
  | .item .threadName _ => some event.thread_name

end FormatItem

/-- Texts one after the other, unless nothing is known of one. -/
def joined {α : Type} (text : α → Option String) : List α → Option String
  | [] => some ""
  | a :: rest => (text a).bind fun first => (joined text rest).map (first ++ ·)

/-- `LogFormatter::format`. -/
def LogFormatter.format (formatter : LogFormatter) (level : LogLevel) (event : LogEvent) :
    Option String :=
  joined (FormatItem.format strftime level event) formatter.items

/-! ### Loggers -/

/-- `log` of an appender: what it writes, and where. -/
def LogAppender.write (appender : LogAppender) (level : LogLevel) (event : LogEvent) :
    Except AppenderFault (List (LogAppenderKind × Option String)) := do
  match ← appender.log level.toNat with
  | none => .ok []
  | some formatter => .ok [(appender.kind, formatter.format strftime level event)]

/-- The loop over the appenders. -/
def writeAll (level : LogLevel) (event : LogEvent) :
    List LogAppender → Except AppenderFault (List (LogAppenderKind × Option String))
  | [] => .ok []
  | data :: rest => do
    let first ← data.write strftime level event
    let later ← writeAll level event rest
    .ok (first ++ later)

/-- `Logger::log`; `m_root` is what the root logger does with the event. -/
def Logger.log (logger : Logger) (level : LogLevel) (event : LogEvent)
    (m_root : Except AppenderFault (List (LogAppenderKind × Option String))) :
    Except AppenderFault (List (LogAppenderKind × Option String)) :=
  if level.toNat ≥ logger.level then
    if logger.appenders ≠ [] then writeAll strftime level event logger.appenders
    else m_root
  else .ok []

/-- A log statement on the logger of a name: the root logger has no `m_root`. -/
def LoggerManager.log (m : LoggerManager) (name : String) (level : LogLevel) (event : LogEvent) :
    Except AppenderFault (List (LogAppenderKind × Option String)) :=
  (m.loggerOf name).log strftime level event
    (if name = "root" then .ok [] else (m.loggerOf "root").log strftime level event (.ok []))

/-! ### What a pattern prints -/

/-- What a directive stands for. -/
def directiveText (level : LogLevel) (event : LogEvent) (name fmt : String) : Option String :=
  match formatItems.lookup name with
  | some kind => (FormatItem.item kind fmt).format strftime level event
  | none => some ("<<error_format %" ++ name ++ ">>")

/-- What a part of a pattern stands for. -/
def PatternItem.meaning (level : LogLevel) (event : LogEvent) : PatternItem → Option String
  | .literal text => some text
  | .bare name => directiveText strftime level event name ""
  | .formatted name fmt => directiveText strftime level event name fmt

end

variable {strftime : String → Nat → String} {level : LogLevel} {event : LogEvent}

theorem joined_map {α β : Type} {text : β → Option String} {f : α → β} (l : List α) :
    joined text (l.map f) = joined (text ∘ f) l := by
  induction l with
  | nil => rfl
  | cons a rest ih => rw [List.map_cons, joined, joined, ih]; rfl

theorem lookup_of_find {α β : Type} [DecidableEq α] {key : α} {entries : List (α × β)} :
    entries.lookup key = (entries.find? fun entry => entry.1 = key).map Prod.snd := by
  induction entries with
  | nil => rfl
  | cons entry rest ih =>
    rw [List.lookup_cons, List.find?_cons, ih]
    by_cases same : entry.1 = key
    · simp [same]
    · rw [beq_eq_false_iff_ne.mpr (Ne.symm same)]
      simp [same]

theorem format_itemOf (name fmt : String) :
    (LogFormatter.itemOf (.directive name fmt)).1.format strftime level event =
      directiveText strftime level event name fmt := by
  rw [directiveText, lookup_of_find, LogFormatter.itemOf]
  split
  next entry found => rw [found, Option.map_some]
  next missing =>
    rw [missing, Option.map_none]
    rfl

/-- Texts that meet are printed as one. -/
theorem joined_joinText (text : String) (parts : List PatternPart) :
    joined (fun part => (LogFormatter.itemOf part).1.format strftime level event)
        (PatternPart.joinText text parts) =
      (joined (fun part => (LogFormatter.itemOf part).1.format strftime level event) parts).map
        (text ++ ·) := by
  cases parts with
  | nil => rfl
  | cons part rest =>
    cases part with
    | text more =>
      simp only [PatternPart.joinText, joined, LogFormatter.itemOf, FormatItem.format,
        Option.bind_some, Option.map_map]
      congr 1
      funext later
      exact String.append_assoc ..
    | directive name fmt => rfl

/-- The parts as they are read print what the parts as they are written stand for. -/
theorem joined_merged (items : List PatternItem) :
    joined (fun part => (LogFormatter.itemOf part).1.format strftime level event)
        (PatternPart.merged items) =
      joined (PatternItem.meaning strftime level event) items := by
  induction items with
  | nil => rfl
  | cons item rest ih =>
    cases item with
    | literal text =>
      rw [PatternPart.merged, joined_joinText, ih]
      rfl
    | bare name =>
      rw [PatternPart.merged, joined, joined, ih, format_itemOf]
      rfl
    | formatted name fmt =>
      rw [PatternPart.merged, joined, joined, ih, format_itemOf]
      rfl

/-- The formatter of a pattern prints what its parts stand for, in order. -/
theorem LogFormatter.format_pattern (layout : Layout) (strftime : String → Nat → String)
    (level : LogLevel) (event : LogEvent) :
    (LogFormatter.new layout.pattern).format strftime level event =
      joined (PatternItem.meaning strftime level event) layout.items := by
  have read : Scans layout.pattern.toList []
      (scan layout.pattern.length layout.pattern.toList []) := by
    rw [← String.length_toList]
    exact scans (Nat.le_refl _) []
  have written : Scans layout.pattern.toList [] (PatternPart.merged layout.items, false) := by
    rw [Layout.pattern, String.toList_ofList]
    exact scans_printAll layout.sound layout.separated []
  rw [format, new_eq, read.unique written, joined_map, ← joined_merged]
  rfl

/-! ### What is configured is written -/

namespace LogIniter

/-- The pattern in force for the appenders of a logger that have none of their own. -/
def inForce (history : List LogDefines) (name : String) : String :=
  ((history.filterMap (given name)).getLast?).getD Logger.defaultPattern

/-- What the appender of a definition writes. -/
def written (strftime : String → Nat → String) (history : List LogDefines) (d : LogDefine)
    (level : LogLevel) (event : LogEvent) (a : LogAppenderDefine) :
    Option (LogAppenderKind × Option String) :=
  if a.level.toNat ≤ level.toNat then
    (appenderOf a).map fun ap => (ap.kind,
      (LogFormatter.new (if usable a.formatter then a.formatter else inForce history d.name)).format
        strftime level event)
  else none

/-- The formatter of every logger was made from its pattern. -/
def Dressed (m : LoggerManager) : Prop :=
  ∀ name, ∃ pattern, (m.loggerOf name).formatter = some (.new pattern)

theorem dressed_new : Dressed .new := by
  intro name
  refine ⟨Logger.defaultPattern, ?_⟩
  unfold LoggerManager.loggerOf LoggerManager.new
  dsimp only
  split <;> rfl

theorem Dressed.listener {m m' : LoggerManager} {old_value new_value : LogDefines}
    (dressed : Dressed m) (ran : listener m old_value new_value = .ok m') : Dressed m' := by
  intro name
  obtain ⟨pattern, worn⟩ := dressed name
  unfold LoggerManager.loggerOf at worn ⊢
  rw [listener_spec ran name]
  cases new_value.named name with
  | some d =>
    by_cases use : usable d.formatter = true
    · exact ⟨d.formatter, by simp [applied, adopted, use]⟩
    · exact ⟨pattern, by simpa [applied, adopted, use] using worn⟩
  | none =>
    cases old_value.named name with
    | some e => exact ⟨pattern, by simpa [retired] using worn⟩
    | none => exact ⟨pattern, worn⟩

theorem Dressed.reload {m m' : LoggerManager} {old_value : LogDefines} {history : List LogDefines}
    (dressed : Dressed m) (ran : reload m old_value history = .ok m') : Dressed m' := by
  induction history generalizing m old_value with
  | nil =>
    cases ran
    exact dressed
  | cons first rest ih =>
    obtain ⟨mid, step, later⟩ := bind_eq_ok.mp ran
    exact ih (dressed.listener step) later

/-- The formatter of a logger, from the history alone. -/
theorem formatter_reload {m' : LoggerManager} {history : List LogDefines}
    (ran : reload .new nothing history = .ok m') (name : String) :
    (m'.loggerOf name).formatter = some (.new (inForce history name)) := by
  obtain ⟨pattern, worn⟩ := dressed_new.reload ran name
  have latest := patternOf_reload ran name
  have first : patternOf .new name = some Logger.defaultPattern := by
    unfold patternOf LoggerManager.new
    dsimp only
    split <;> rfl
  have shown : patternOf m' name = some pattern := by
    rw [patternOf]
    unfold LoggerManager.loggerOf at worn
    rw [worn]
    rfl
  rw [latest, latestPattern, first] at shown
  rw [worn, inForce]
  cases found : (history.filterMap (given name)).getLast? with
  | none =>
    rw [found] at shown
    cases shown
    rfl
  | some given =>
    rw [found] at shown
    cases shown
    rfl

/-- What the appender of a definition writes, in a logger with this pattern. -/
theorem write_attached (pattern : String) (a : LogAppenderDefine) (ap : LogAppender) :
    (attached (some (.new pattern)) a ap).write strftime level event =
      .ok (if a.level.toNat ≤ level.toNat then
        [(ap.kind, (LogFormatter.new (if usable a.formatter then a.formatter else pattern)).format
          strftime level event)]
      else []) := by
  have worn : (attached (some (.new pattern)) a ap).formatter =
      some (.new (if usable a.formatter then a.formatter else pattern)) := by
    rw [attached_formatter]
    split <;> rfl
  rw [LogAppender.write, LogAppender.log, attached_level, attached_kind, worn]
  by_cases high : a.level.toNat ≤ level.toNat
  · rw [if_pos high, if_pos high]
    rfl
  · rw [if_neg high, if_neg high]
    rfl

/-- What the appenders of a definition write. -/
theorem writeAll_attached {history : List LogDefines} (d : LogDefine)
    (appenders : List LogAppenderDefine) :
    writeAll strftime level event (appenders.filterMap fun a =>
        (appenderOf a).map (attached (some (.new (inForce history d.name))) a)) =
      .ok (appenders.filterMap (written strftime history d level event)) := by
  induction appenders with
  | nil => rfl
  | cons a rest ih =>
    rw [List.filterMap_cons, List.filterMap_cons, written]
    cases made : appenderOf a with
    | none =>
      rw [Option.map_none, Option.map_none, ite_self]
      exact ih
    | some ap =>
      rw [Option.map_some, Option.map_some]
      dsimp only
      rw [writeAll, write_attached, ih]
      by_cases high : a.level.toNat ≤ level.toNat
      · rw [if_pos high, if_pos high]
        rfl
      · rw [if_neg high, if_neg high]
        rfl

/-- A name that some configuration gave has a definition in the last one, or its logger is shut. -/
def GivenOrShut (m : LoggerManager) (set : LogDefines) (name : String) : Prop :=
  set.named name = none → ∃ l, m.loggers name = some l ∧ l.level = 100

theorem givenOrShut_reload {m m' : LoggerManager} {old_value set : LogDefines}
    {history : List LogDefines} {name : String} (before : GivenOrShut m old_value name)
    (ran : reload m old_value history = .ok m') (ends : history.getLast?.getD old_value = set) :
    GivenOrShut m' set name := by
  induction history generalizing m old_value with
  | nil =>
    cases ran
    cases ends
    exact before
  | cons first rest ih =>
    obtain ⟨mid, step, later⟩ := bind_eq_ok.mp ran
    refine ih ?_ later ?_
    · intro absent
      rw [listener_spec step name, absent]
      cases held : old_value.named name with
      | some e => exact ⟨_, rfl, rfl⟩
      | none => exact before held
    · rw [← ends, List.getLast?_cons, Option.getD_some]

/-- The logger of a name that was given once and is not given any more. -/
theorem shut_reload {m m' : LoggerManager} {old_value set : LogDefines}
    {history : List LogDefines} {name : String} (ran : reload m old_value history = .ok m')
    (ends : history.getLast? = some set) (once : ∃ s ∈ history, s.named name ≠ none)
    (absent : set.named name = none) : ∃ l, m'.loggers name = some l ∧ l.level = 100 := by
  induction history generalizing m old_value with
  | nil => cases ends
  | cons first rest ih =>
    obtain ⟨mid, step, later⟩ := bind_eq_ok.mp ran
    by_cases here : first.named name = none
    · obtain ⟨s, member, given⟩ := once
      rcases List.mem_cons.mp member with rfl | behind
      · exact absurd here given
      · cases rest with
        | nil => cases behind
        | cons second rest =>
          rw [List.getLast?_cons_cons] at ends
          exact ih later ends ⟨s, behind, given⟩
    · have given : GivenOrShut mid first name := fun none => absurd none here
      rw [List.getLast?_cons, Option.some.injEq] at ends
      exact givenOrShut_reload given later ends absent

/-- The logger of a name that no configuration gives. -/
theorem untouched_reload {m m' : LoggerManager} {old_value : LogDefines}
    {history : List LogDefines} {name : String} (ran : reload m old_value history = .ok m')
    (old : old_value.named name = none) (never : ∀ s ∈ history, s.named name = none) :
    m'.loggers name = m.loggers name := by
  induction history generalizing m old_value with
  | nil =>
    cases ran
    rfl
  | cons first rest ih =>
    obtain ⟨mid, step, later⟩ := bind_eq_ok.mp ran
    obtain ⟨here, others⟩ := List.forall_mem_cons.mp never
    rw [ih later here others, listener_spec step name, here, old]

/-- What log statements write after a history of configurations. -/
structure Writes (strftime : String → Nat → String) (history : List LogDefines)
    (set : LogDefines) (m : LoggerManager) (level : LogLevel) (event : LogEvent) : Prop where
  /-- The appenders of the last definition, or for want of any the root logger. -/
  defined : ∀ d ∈ set.defines, m.log strftime d.name level event =
    if level.toNat < d.level.toNat then .ok []
    else if d.appenders ≠ [] then
      .ok (d.appenders.filterMap (written strftime history d level event))
    else if d.name = "root" then .ok [] else m.log strftime "root" level event
  removed : ∀ name, set.named name = none → (∃ s ∈ history, s.named name ≠ none) →
    m.log strftime name level event = .ok []
  untouched : ∀ name, name ≠ "root" → (∀ s ∈ history, s.named name = none) →
    m.log strftime name level event =
      if level = .UNKNOW then .ok [] else m.log strftime "root" level event
  terminal : (∀ s ∈ history, s.named "root" = none) →
    m.log strftime "root" level event =
      if level = .UNKNOW then .ok []
      else .ok [(.StdoutLogAppender,
        (LogFormatter.new Logger.defaultPattern).format strftime level event)]

theorem log_root (m : LoggerManager) :
    m.log strftime "root" level event =
      (m.loggerOf "root").log strftime level event (.ok []) := by
  rw [LoggerManager.log, if_pos rfl]

theorem toNat_lt_debug : level.toNat < LogLevel.DEBUG.toNat ↔ level = .UNKNOW := by
  cases level <;> decide

/-- Every log statement writes what the last configuration says, with the patterns that the
history left in force. -/
theorem writes_after_reloads {m' : LoggerManager} {history : List LogDefines} {set : LogDefines}
    (ran : reload .new nothing history = .ok m') (ends : history.getLast? = some set)
    (strftime : String → Nat → String) (level : LogLevel) (event : LogEvent) :
    Writes strftime history set m' level event := by
  constructor
  · intro d member
    obtain ⟨mid, previous, last⟩ := reload_last ran ends
    obtain ⟨between, defined, -⟩ := bind_eq_ok.mp last
    have typed := (define_loop_ok defined d member).2
    obtain ⟨l, found, -⟩ := reload_logger ran ends member
    have logger : m'.loggerOf d.name = applied d l := by
      rw [LoggerManager.loggerOf, found, Option.getD_some]
    have worn : adopted d l.formatter = some (.new (inForce history d.name)) := by
      rw [← formatter_reload ran d.name, logger]
      rfl
    have appenders : (applied d l).appenders = d.appenders.filterMap fun a =>
        (appenderOf a).map (attached (some (.new (inForce history d.name))) a) := by
      rw [← worn]
      rfl
    have empty : (applied d l).appenders = [] ↔ d.appenders = [] := by
      rw [appenders, List.filterMap_eq_nil_iff]
      constructor
      · intro none
        rw [List.eq_nil_iff_forall_not_mem]
        intro a among
        have made := (appenderOf_isSome a).mpr (typed a among)
        rw [Option.map_eq_none_iff.mp (none a among)] at made
        cases made
      · intro nothing
        rw [nothing]
        exact fun a among => absurd among List.not_mem_nil
    rw [log_root, LoggerManager.log, logger, Logger.log]
    change (if level.toNat ≥ d.level.toNat then _ else _) = _
    by_cases high : level.toNat < d.level.toNat
    · rw [if_neg (Nat.not_le.mpr high), if_pos high]
    · rw [if_pos (Nat.not_lt.mp high), if_neg high]
      by_cases none : d.appenders = []
      · rw [if_neg (not_not.mpr (empty.mpr none)), if_neg (not_not.mpr none)]
      · rw [if_pos (mt empty.mp none), if_pos none, appenders, writeAll_attached]
  · intro name absent once
    obtain ⟨l, found, level_eq⟩ := shut_reload ran ends once absent
    rw [LoggerManager.log, LoggerManager.loggerOf, found, Option.getD_some, Logger.log, level_eq,
      if_neg (by cases level <;> decide)]
  · intro name other never
    have kept := untouched_reload ran rfl never
    have logger : m'.loggerOf name = .new name := by
      rw [LoggerManager.loggerOf, kept, LoggerManager.new]
      dsimp only
      rw [if_neg other, Option.getD_none]
    rw [log_root, LoggerManager.log, logger, if_neg other, Logger.log]
    change (if level.toNat ≥ LogLevel.DEBUG.toNat then _ else _) = _
    by_cases unknown : level = .UNKNOW
    · rw [if_pos unknown, if_neg (Nat.not_le.mpr (toNat_lt_debug.mpr unknown))]
    · rw [if_neg unknown, if_pos (Nat.not_lt.mp (mt toNat_lt_debug.mp unknown))]
      rfl
  · intro never
    have kept := untouched_reload ran rfl never
    have logger : m'.loggerOf "root" =
        (Logger.new "root").addAppender (.new .StdoutLogAppender) := by
      rw [LoggerManager.loggerOf, kept, LoggerManager.new]
      rfl
    rw [log_root, logger, Logger.log]
    change (if level.toNat ≥ LogLevel.DEBUG.toNat then _ else _) = _
    by_cases unknown : level = .UNKNOW
    · rw [if_pos unknown, if_neg (Nat.not_le.mpr (toNat_lt_debug.mpr unknown))]
    · have high := Nat.not_lt.mp (mt toNat_lt_debug.mp unknown)
      let terminal : LogAppender :=
        (LogAppender.new .StdoutLogAppender).SetFormatter (some (.new Logger.defaultPattern))
      have shown : terminal.log level.toNat = .ok (some (.new Logger.defaultPattern)) := if_pos high
      have wrote : terminal.write strftime level event = .ok [(.StdoutLogAppender,
          (LogFormatter.new Logger.defaultPattern).format strftime level event)] := by
        rw [LogAppender.write, shown]
        rfl
      rw [if_neg unknown, if_pos high]
      change writeAll strftime level event [terminal] = _
      rw [writeAll, wrote]
      rfl

/-- The pattern of the first configuration is in force under the second, which gives none. -/
theorem writes_after_reloads_stale :
    let event : LogEvent := ⟨"a.cc", 7, 0, 1, 2, 0, 5, "hello", "web", "main"⟩
    ∃ m', reload .new nothing [webOnly .DEBUG "%p %m%n", webOnly .INFO ""] = .ok m' ∧
      m'.log (fun _ _ => "") "web" .WARN event =
        .ok [(.StdoutLogAppender, some "WARN hello\n")] := by
  intro event
  let history := [webOnly .DEBUG "%p %m%n", webOnly .INFO ""]
  refine ⟨_, rfl, ?_⟩
  have writes := @writes_after_reloads _ history _ rfl rfl (fun _ _ => "") .WARN event
  have wrote := writes.defined _ (List.mem_singleton_self _)
  refine wrote.trans ?_
  decide

end LogIniter

end Dwframe
