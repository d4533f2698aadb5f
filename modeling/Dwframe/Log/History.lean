import Dwframe.Log.Reload

/-!
# Reload histories

A history is the list of configurations the listener is given one after the other. Level and
appenders of a logger are set anew by every definition of its name; the formatter is set only by
a usable pattern and survives everything else, the removal of the definition included.
-/
namespace Dwframe.LogIniter

open Lib Lib.Keyed

/-- The listener, called for every configuration. -/
def reload (m : LoggerManager) (old_value : LogDefines) :
    List LogDefines → Except LogFault LoggerManager
  | [] => .ok m
  | new_value :: rest => do
    let m ← listener m old_value new_value
    reload m new_value rest

/-- At every update the definition of each name that is kept changes. -/
def Changing (old_value : LogDefines) : List LogDefines → Prop
  | [] => True
  | new_value :: rest =>
    (∀ d ∈ new_value.defines, d ∉ old_value.defines) ∧ Changing new_value rest

/-- The usable pattern a configuration gives a name. -/
def given (name : String) (set : LogDefines) : Option String :=
  (set.named name).bind fun d => if usable d.formatter then some d.formatter else none

/-- The pattern of a logger; the one a new logger would have if there is none. -/
def patternOf (m : LoggerManager) (name : String) : Option String :=
  ((m.loggers name).getD (.new name)).formatter.map LogFormatter.pattern

/-- The latest usable pattern a history gives a name, the initial one if it gives none. -/
def latestPattern (m : LoggerManager) (history : List LogDefines) (name : String) :
    Option String :=
  (history.filterMap (given name)).getLast?.or (patternOf m name)

/-- What is compared of an appender: its type, file, level and effective pattern. -/
def appenderView (ap : LogAppender) : LogAppenderKind × Nat × Option String :=
  (ap.kind, ap.level, ap.formatter.map LogFormatter.pattern)

/-- Two managers have the same logger of a name. -/
def SameLogger (m₁ m₂ : LoggerManager) (name : String) : Prop :=
  ∃ l₁ l₂, m₁.loggers name = some l₁ ∧ m₂.loggers name = some l₂ ∧ l₁.level = l₂.level ∧
    l₁.formatter.map LogFormatter.pattern = l₂.formatter.map LogFormatter.pattern ∧
    l₁.appenders.map appenderView = l₂.appenders.map appenderView

/-- One update: a usable pattern replaces the old one. -/
theorem patternOf_listener {m m' : LoggerManager} {old_value new_value : LogDefines}
    (ran : listener m old_value new_value = .ok m') (name : String) :
    patternOf m' name = (given name new_value).or (patternOf m name) := by
  rw [patternOf, patternOf, listener_spec ran name, given]
  cases new_value.named name with
  | some d =>
    by_cases use : usable d.formatter = true
    · simp [applied, adopted, use]
    · simp [applied, adopted, use]
  | none =>
    cases old_value.named name with
    | some e => simp [retired]
    | none => simp

theorem patternOf_reload {m m' : LoggerManager} {old_value : LogDefines}
    {history : List LogDefines} (ran : reload m old_value history = .ok m') (name : String) :
    patternOf m' name = latestPattern m history name := by
  induction history generalizing m old_value with
  | nil =>
    cases ran
    rfl
  | cons new_value rest ih =>
    obtain ⟨mid, first, later⟩ := bind_eq_ok.mp ran
    rw [ih later, latestPattern, patternOf_listener first name, latestPattern,
      List.filterMap_cons]
    -- the pattern of this update counts unless a later one gives another
    cases given name new_value with
    | none => simp
    | some pattern =>
      rw [List.getLast?_cons]
      cases (List.filterMap (given name) rest).getLast? with
      | none => simp
      | some later => simp

/-- The appenders a definition makes, from the pattern of the logger alone. -/
theorem view_applied (d : LogDefine) (l : Logger) :
    (applied d l).appenders.map appenderView = d.appenders.filterMap fun a =>
      (appenderOf a).map fun ap => (ap.kind, a.level.toNat,
        if usable a.formatter then some a.formatter
        else (applied d l).formatter.map LogFormatter.pattern) := by
  rw [applied, List.map_filterMap]
  apply List.filterMap_congr
  intro a _
  rw [Option.map_map]
  congr 1
  funext ap
  rw [Function.comp_apply, appenderView, attached_kind, attached_level, attached_formatter,
    apply_ite (Option.map LogFormatter.pattern)]
  rfl

/-- The last update of a history. -/
theorem reload_last {m m' : LoggerManager} {old_value new_value : LogDefines}
    {history : List LogDefines} (ran : reload m old_value history = .ok m')
    (ends : history.getLast? = some new_value) :
    ∃ mid previous, listener mid previous new_value = .ok m' := by
  induction history generalizing m old_value with
  | nil => cases ends
  | cons first rest ih =>
    obtain ⟨mid, ran_first, later⟩ := bind_eq_ok.mp ran
    cases rest with
    | nil =>
      cases ends
      cases later
      exact ⟨m, old_value, ran_first⟩
    | cons second rest =>
      rw [List.getLast?_cons_cons] at ends
      exact ih later ends

theorem reload_returns (m : LoggerManager) {old_value : LogDefines} {history : List LogDefines}
    (changing : Changing old_value history)
    (typed : ∀ set ∈ history, ∀ d ∈ set.defines, Typed d) :
    ∃ m', reload m old_value history = .ok m' := by
  induction history generalizing m old_value with
  | nil => exact ⟨m, rfl⟩
  | cons first rest ih =>
    obtain ⟨differs, later⟩ := changing
    obtain ⟨mid, ran⟩ := listener_returns m fun d member =>
      ⟨differs d member, typed first List.mem_cons_self d member⟩
    obtain ⟨m', ran'⟩ := ih mid later fun set member => typed set (List.mem_cons_of_mem _ member)
    exact ⟨m', bind_eq_ok.mpr ⟨mid, ran, ran'⟩⟩

/-- A logger named in the last configuration, after the history. -/
theorem reload_logger {m m' : LoggerManager} {old_value new_value : LogDefines}
    {history : List LogDefines} (ran : reload m old_value history = .ok m')
    (ends : history.getLast? = some new_value) {d : LogDefine} (member : d ∈ new_value.defines) :
    ∃ l, m'.loggers d.name = some (applied d l) ∧
      (applied d l).formatter.map LogFormatter.pattern = latestPattern m history d.name := by
  obtain ⟨mid, previous, last⟩ := reload_last ran ends
  have found := listener_spec last d.name
  rw [new_value.named_eq_some.mpr ⟨member, rfl⟩] at found
  refine ⟨_, found, ?_⟩
  rw [← patternOf_reload ran, patternOf, found]
  rfl

/-- Two histories from the same loggers to the same configuration leave the loggers it names the
same exactly when they give each of the names the same usable pattern last. -/
theorem same_loggers_iff (m : LoggerManager) (old₁ old₂ new_value : LogDefines)
    (first second : List LogDefines) (ends₁ : first.getLast? = some new_value)
    (ends₂ : second.getLast? = some new_value) (changing₁ : Changing old₁ first)
    (changing₂ : Changing old₂ second) (typed₁ : ∀ set ∈ first, ∀ d ∈ set.defines, Typed d)
    (typed₂ : ∀ set ∈ second, ∀ d ∈ set.defines, Typed d) :
    ∃ m₁ m₂, reload m old₁ first = .ok m₁ ∧ reload m old₂ second = .ok m₂ ∧
      ((∀ d ∈ new_value.defines, SameLogger m₁ m₂ d.name) ↔
        ∀ d ∈ new_value.defines,
          latestPattern m first d.name = latestPattern m second d.name) := by
  obtain ⟨m₁, ran₁⟩ := reload_returns m changing₁ typed₁
  obtain ⟨m₂, ran₂⟩ := reload_returns m changing₂ typed₂
  refine ⟨m₁, m₂, ran₁, ran₂, forall₂_congr fun d member => ?_⟩
  obtain ⟨l₁, found₁, pattern₁⟩ := reload_logger ran₁ ends₁ member
  obtain ⟨l₂, found₂, pattern₂⟩ := reload_logger ran₂ ends₂ member
  -- level and appenders come from the same definition; only the formatter has a history
  rw [← pattern₁, ← pattern₂]
  constructor
  · rintro ⟨k₁, k₂, held₁, held₂, -, same, -⟩
    rw [found₁] at held₁
    rw [found₂] at held₂
    cases held₁
    cases held₂
    exact same
  · intro same
    refine ⟨_, _, found₁, found₂, rfl, same, ?_⟩
    rw [view_applied, view_applied, same]

/-- A configuration of the logger `web` alone. -/
def webOnly (level : LogLevel) (formatter : String) : LogDefines :=
  ⟨[⟨"web", level, formatter, [⟨2, level, "", ""⟩]⟩], List.pairwise_singleton _ _⟩

def nothing : LogDefines := ⟨[], List.Pairwise.nil⟩

/-- A detour over another pattern, undone by a pattern of the last configuration. -/
theorem same_loggers_iff_pattern_given_last :
    ∃ m₁ m₂, reload .new nothing [webOnly .DEBUG "%m%n", webOnly .INFO "%p %m%n"] = .ok m₁ ∧
      reload .new nothing [webOnly .INFO "%p %m%n"] = .ok m₂ ∧
      ∀ d ∈ (webOnly .INFO "%p %m%n").defines, SameLogger m₁ m₂ d.name := by
  obtain ⟨m₁, m₂, ran₁, ran₂, same⟩ := same_loggers_iff .new nothing nothing
    (webOnly .INFO "%p %m%n") [webOnly .DEBUG "%m%n", webOnly .INFO "%p %m%n"]
    [webOnly .INFO "%p %m%n"] rfl rfl ⟨by decide, by decide, trivial⟩ ⟨by decide, trivial⟩
    (by decide) (by decide)
  exact ⟨m₁, m₂, ran₁, ran₂, same.mpr (by decide)⟩

/-- A pattern survives the configuration that no longer gives one, and the removal of the logger's
definition. -/
theorem stale_pattern :
    (∃ m₁ m₂, Changing nothing [webOnly .DEBUG "%m%n", webOnly .INFO ""] ∧
      Changing nothing [webOnly .INFO ""] ∧
      reload .new nothing [webOnly .DEBUG "%m%n", webOnly .INFO ""] = .ok m₁ ∧
      reload .new nothing [webOnly .INFO ""] = .ok m₂ ∧ ¬SameLogger m₁ m₂ "web") ∧
    ∃ m₁ m₂, Changing nothing [webOnly .DEBUG "%m%n", nothing, webOnly .INFO ""] ∧
      Changing nothing [webOnly .INFO ""] ∧
      reload .new nothing [webOnly .DEBUG "%m%n", nothing, webOnly .INFO ""] = .ok m₁ ∧
      reload .new nothing [webOnly .INFO ""] = .ok m₂ ∧ ¬SameLogger m₁ m₂ "web" := by
  constructor
  · refine ⟨_, _, ⟨by decide, by decide, trivial⟩, ⟨by decide, trivial⟩, rfl, rfl, ?_⟩
    rintro ⟨l₁, l₂, held₁, held₂, -, same, -⟩
    cases held₁
    cases held₂
    revert same
    decide
  · refine ⟨_, _, ⟨by decide, by decide, by decide, trivial⟩, ⟨by decide, trivial⟩, rfl, rfl, ?_⟩
    rintro ⟨l₁, l₂, held₁, held₂, -, same, -⟩
    cases held₁
    cases held₂
    revert same
    decide

end Dwframe.LogIniter
