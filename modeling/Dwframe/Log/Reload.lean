import Dwframe.Log.Logger
import Dwframe.Lib.Keyed

/-!
# What a reload does to a logger

The listener touches a logger only through the definition of its name, so a reload is described
name by name: `applied` is what a definition makes of a logger, `retired` what a removal leaves.
A definition that is in both sets leaves the pointer `logger` null.
-/
namespace Dwframe

open Lib Lib.Keyed

namespace LogDefines

/-- The definition of a name. -/
def named (set : LogDefines) (name : String) : Option LogDefine :=
  ofKey LogDefine.name set.defines name

theorem find_eq (set : LogDefines) (i : LogDefine) : set.find i = set.named i.name := rfl

theorem distinct (set : LogDefines) : set.defines.Pairwise fun a b => a.name ≠ b.name := by
  refine set.sorted.imp fun {a b} before same => ?_
  rw [same] at before
  exact absurd before (String.lt_irrefl _)

theorem named_eq_some (set : LogDefines) {d : LogDefine} {name : String} :
    set.named name = some d ↔ d ∈ set.defines ∧ d.name = name :=
  ofKey_eq_some set.distinct

theorem mem_iff (set : LogDefines) {d : LogDefine} : d ∈ set.defines ↔ set.find d = some d := by
  rw [find_eq, named_eq_some]
  simp

end LogDefines

namespace LoggerManager

/-- The logger of a name, a new one if there is none. -/
def loggerOf (m : LoggerManager) (name : String) : Logger := (m.loggers name).getD (.new name)

def set (m : LoggerManager) (name : String) (l : Logger) : LoggerManager :=
  ⟨Function.update m.loggers name (some l)⟩

theorem getLogger_eq (m : LoggerManager) (name : String) :
    m.getLogger name = (name, m.set name (m.loggerOf name)) := by
  cases held : m.loggers name with
  | some l =>
    have same : Function.update m.loggers name (some l) = m.loggers := by
      rw [← held]
      exact Function.update_eq_self name m.loggers
    simp [getLogger, loggerOf, set, held, same]
  | none => simp [getLogger, loggerOf, set, held]

theorem call_set (m : LoggerManager) (name : String) (l : Logger) (f : Logger → Logger) :
    (m.set name l).call (some name) f = .ok (m.set name (f l)) := by
  simp [call, set, Function.update_idem]

end LoggerManager

namespace LogIniter

/-- A pattern the listener makes a formatter of. -/
def usable (pattern : String) : Bool := !pattern.isEmpty && !(LogFormatter.new pattern).isError

/-- The types the listener knows. -/
def Typed (d : LogDefine) : Prop := ∀ a ∈ d.appenders, a.type = 1 ∨ a.type = 2

instance (d : LogDefine) : Decidable (Typed d) :=
  inferInstanceAs (Decidable (∀ a ∈ d.appenders, a.type = 1 ∨ a.type = 2))

/-- The formatter a logger has after a definition. -/
def adopted (d : LogDefine) (formatter : Option LogFormatter) : Option LogFormatter :=
  if usable d.formatter then some (.new d.formatter) else formatter

/-- An appender in a logger with that formatter. -/
def attached (formatter : Option LogFormatter) (a : LogAppenderDefine) (ap : LogAppender) :
    LogAppender :=
  let ap := ap.setLevel a.level.toNat
  if usable a.formatter then ap.setFormatter (some (.new a.formatter))
  else ap.SetFormatter formatter

/-- What a definition makes of a logger. -/
def applied (d : LogDefine) (l : Logger) : Logger :=
  { l with
    level := d.level.toNat
    formatter := adopted d l.formatter
    appenders := d.appenders.filterMap fun a =>
      (appenderOf a).map (attached (adopted d l.formatter) a) }

/-- What the removal of its definition leaves of a logger. -/
def retired (l : Logger) : Logger := { l with level := 100, appenders := [] }

/-! ### One definition -/

theorem appenderOf_isSome (a : LogAppenderDefine) :
    (appenderOf a).isSome = true ↔ a.type = 1 ∨ a.type = 2 := by
  unfold appenderOf
  by_cases file : a.type = 1
  · simp [file]
  · by_cases terminal : a.type = 2
    · simp [terminal]
    · simp [file, terminal]

theorem appenderOf_eq_some {a : LogAppenderDefine} {ap : LogAppender}
    (made : appenderOf a = some ap) :
    a.type = 1 ∧ ap = .new (.FileoutLogAppender a.file) ∨
      a.type = 2 ∧ ap = .new .StdoutLogAppender := by
  unfold appenderOf at made
  split at made
  next file => exact .inl ⟨file, (Option.some.inj made).symm⟩
  next =>
    split at made
    next terminal => exact .inr ⟨terminal, (Option.some.inj made).symm⟩
    next => cases made

theorem attached_kind (formatter : Option LogFormatter) (a : LogAppenderDefine)
    (ap : LogAppender) : (attached formatter a ap).kind = ap.kind := by
  unfold attached
  dsimp only
  split <;> rfl

theorem attached_level (formatter : Option LogFormatter) (a : LogAppenderDefine)
    (ap : LogAppender) : (attached formatter a ap).level = a.level.toNat := by
  unfold attached
  dsimp only
  split <;> rfl

theorem attached_formatter (formatter : Option LogFormatter) (a : LogAppenderDefine)
    (ap : LogAppender) : (attached formatter a ap).formatter =
      if usable a.formatter then some (.new a.formatter) else formatter := by
  unfold attached
  dsimp only
  split <;> rfl

theorem makeAppender_none {a : LogAppenderDefine} (none : appenderOf a = none) :
    makeAppender a = .error .nullAppender := by
  simp [makeAppender, none]

/-- The logger lends its formatter to an appender that has no usable one. -/
theorem makeAppender_some {a : LogAppenderDefine} {ap : LogAppender}
    (made : appenderOf a = some ap) :
    ∃ ap', makeAppender a = .ok ap' ∧ ∀ l : Logger, l.addAppender ap' =
      { l with appenders := l.appenders ++ [attached l.formatter a ap] } := by
  have fresh : ap.formatter = none := by
    rcases appenderOf_eq_some made with ⟨-, rfl⟩ | ⟨-, rfl⟩
    · rfl
    · rfl
  simp only [makeAppender, made, attached]
  by_cases empty : a.formatter.isEmpty = true
  · refine ⟨_, if_pos empty, fun l => ?_⟩
    simp [Logger.addAppender, LogAppender.setLevel, fresh, usable, empty]
  · rw [if_neg empty]
    by_cases invalid : (LogFormatter.new a.formatter).isError = true
    · refine ⟨_, if_pos invalid, fun l => ?_⟩
      simp [Logger.addAppender, LogAppender.setLevel, fresh, usable, invalid]
    · refine ⟨_, if_neg invalid, fun l => ?_⟩
      simp [Logger.addAppender, LogAppender.setFormatter, usable, empty, invalid]

/-- The loop over the appenders of a definition. -/
theorem addAppenders (m : LoggerManager) (name : String) (l : Logger)
    (appenders : List LogAppenderDefine) :
    appenders.foldlM (fun m a => do
        let ap ← makeAppender a
        m.call (some name) fun l => l.addAppender ap) (m.set name l) =
      if ∀ a ∈ appenders, a.type = 1 ∨ a.type = 2 then
        .ok (m.set name { l with
          appenders := l.appenders ++ appenders.filterMap fun a =>
            (appenderOf a).map (attached l.formatter a) })
      else .error .nullAppender := by
  induction appenders generalizing l with
  | nil => simp [pure, Except.pure]
  | cons a rest ih =>
    rw [List.foldlM_cons]
    cases made : appenderOf a with
    | none =>
      have untyped : ¬(a.type = 1 ∨ a.type = 2) := by
        rw [← appenderOf_isSome, made]
        simp
      rw [makeAppender_none made, if_neg]
      · rfl
      · intro typed
        exact untyped (typed a List.mem_cons_self)
    | some ap =>
      have typed : a.type = 1 ∨ a.type = 2 := by
        rw [← appenderOf_isSome, made]
        rfl
      obtain ⟨ap', ran, added⟩ := makeAppender_some made
      have first : (do
          let ap ← makeAppender a
          (m.set name l).call (some name) fun l => l.addAppender ap) =
          .ok (m.set name { l with appenders := l.appenders ++ [attached l.formatter a ap] }) := by
        rw [ran]
        exact (LoggerManager.call_set m name l _).trans (by rw [added])
      rw [first]
      refine (ih _).trans ?_
      simp [typed, made]

/-- The rest of the loop body, on a logger that exists. -/
theorem configure_eq (m : LoggerManager) (l : Logger) (d : LogDefine) :
    configure (m.set d.name l) (some d.name) d =
      if Typed d then .ok (m.set d.name (applied d l)) else .error .nullAppender := by
  have level := m.call_set d.name l fun l => l.setLevel d.level.toNat
  -- once the formatter is set, the appenders are cleared and made anew
  have rest : ∀ mid : Logger, mid.clearAppends =
      { l with level := d.level.toNat, formatter := adopted d l.formatter, appenders := [] } →
      (do
        let m ← (m.set d.name mid).call (some d.name) Logger.clearAppends
        d.appenders.foldlM (fun (m : LoggerManager) a => do
          let ap ← makeAppender a
          m.call (some d.name) fun l => l.addAppender ap) m) =
        if Typed d then .ok (m.set d.name (applied d l)) else .error .nullAppender := by
    intro mid cleared
    rw [m.call_set, cleared]
    by_cases typed : Typed d
    · rw [if_pos typed]
      exact (addAppenders m d.name _ d.appenders).trans (if_pos typed)
    · rw [if_neg typed]
      exact (addAppenders m d.name _ d.appenders).trans (if_neg typed)
  unfold configure
  simp only [level, bind, Except.bind]
  by_cases empty : d.formatter.isEmpty = true
  · rw [if_pos empty]
    apply rest
    simp [Logger.clearAppends, Logger.setLevel, adopted, usable, empty]
  · rw [if_neg empty, m.call_set]
    apply rest
    by_cases invalid : (LogFormatter.new d.formatter).isError = true
    · simp [Logger.setFormatter, Logger.clearAppends, Logger.setLevel, adopted, usable, invalid]
    · simp [Logger.setFormatter, Logger.setFormatterPtr, Logger.clearAppends, Logger.setLevel,
        adopted, usable, invalid, empty]

/-- The loop body: a null pointer for a definition in both sets, else one logger is rebuilt. -/
theorem define_eq (old_value : LogDefines) (m : LoggerManager) (d : LogDefine) :
    define old_value m d =
      if d ∈ old_value.defines then .error .nullLogger
      else if Typed d then .ok (m.set d.name (applied d (m.loggerOf d.name)))
      else .error .nullAppender := by
  have rebuilt : configure (m.getLogger d.name).2 (some (m.getLogger d.name).1) d =
      if Typed d then .ok (m.set d.name (applied d (m.loggerOf d.name)))
      else .error .nullAppender := by
    rw [m.getLogger_eq]
    exact configure_eq m _ d
  unfold define
  cases found : old_value.find d with
  | none =>
    rw [if_neg]
    · exact rebuilt
    · intro member
      rw [old_value.mem_iff.mp member] at found
      cases found
  | some it =>
    by_cases same : d = it
    · subst same
      rw [if_pos (old_value.mem_iff.mpr found)]
      simp [configure, LoggerManager.call, bind, Except.bind]
    · rw [if_neg]
      · simp only [ne_eq, same, not_false_eq_true, if_true]
        exact rebuilt
      · intro member
        rw [old_value.mem_iff.mp member] at found
        exact same (Option.some.inj found)

/-! ### The loops -/

theorem define_loop (old_value new_value : LogDefines) (m : LoggerManager)
    (fresh : ∀ d ∈ new_value.defines, d ∉ old_value.defines ∧ Typed d) :
    ∃ m', new_value.defines.foldlM (define old_value) m = .ok m' ∧
      ∀ name, m'.loggers name = (new_value.named name).elim (m.loggers name) fun d =>
        some (applied d ((m.loggers name).getD (.new d.name))) := by
  -- a definition changes the logger of its own name only
  refine foldlM_keyed LogDefine.name LoggerManager.loggers
    (fun d l => some (applied d (l.getD (.new d.name)))) new_value.distinct ?_ m
  intro d member s
  obtain ⟨differs, typed⟩ := fresh d member
  refine ⟨_, by rw [define_eq, if_neg differs, if_pos typed], fun name => ?_⟩
  by_cases own : name = d.name
  · subst own
    simp [LoggerManager.set, LoggerManager.loggerOf]
  · simp [LoggerManager.set, own]

theorem remove_loop (old_value new_value : LogDefines) (m : LoggerManager) :
    ∃ m', old_value.defines.foldlM (remove new_value) m = .ok m' ∧
      ∀ name, m'.loggers name = (old_value.named name).elim (m.loggers name) fun d =>
        if (new_value.named d.name).isSome then m.loggers name
        else some (retired ((m.loggers name).getD (.new d.name))) := by
  -- a definition whose name is kept changes nothing here
  refine foldlM_keyed LogDefine.name LoggerManager.loggers
    (fun d l => if (new_value.named d.name).isSome then l
      else some (retired (l.getD (.new d.name)))) old_value.distinct ?_ m
  intro d member s
  unfold remove
  rw [LogDefines.find_eq]
  cases found : new_value.named d.name with
  | some e => exact ⟨s, rfl, fun name => by simp⟩
  | none =>
    refine ⟨s.set d.name (retired (s.loggerOf d.name)), ?_, fun name => ?_⟩
    · simp only [s.getLogger_eq, LoggerManager.call_set, bind, Except.bind]
      rfl
    · by_cases own : name = d.name
      · subst own
        simp [LoggerManager.set, LoggerManager.loggerOf]
      · simp [LoggerManager.set, own]

/-- What a loop that ended says of its definitions. -/
theorem define_loop_ok {old_value : LogDefines} {ds : List LogDefine} {m m' : LoggerManager}
    (ran : ds.foldlM (define old_value) m = .ok m') :
    ∀ d ∈ ds, d ∉ old_value.defines ∧ Typed d := by
  induction ds generalizing m with
  | nil => simp
  | cons d rest ih =>
    rw [List.foldlM_cons] at ran
    obtain ⟨mid, first, later⟩ := bind_eq_ok.mp ran
    rw [define_eq] at first
    intro e member
    rcases List.mem_cons.mp member with rfl | behind
    · split at first
      next => cases first
      next differs =>
        split at first
        next typed => exact ⟨differs, typed⟩
        next => cases first
    · exact ih later e behind

/-- The loop meets a null logger at a definition that is in both sets, unless it has met a type
it does not know before. -/
theorem define_loop_null (old_value : LogDefines) (ds : List LogDefine) (m : LoggerManager) :
    ds.foldlM (define old_value) m ≠ .error .nullLogger ↔
      ∀ before d after, ds = before ++ d :: after → d ∈ old_value.defines →
        ∃ e ∈ before, ¬Typed e := by
  induction ds generalizing m with
  | nil => simp [pure, Except.pure]
  | cons d rest ih =>
    rw [List.foldlM_cons, define_eq]
    by_cases both : d ∈ old_value.defines
    · rw [if_pos both]
      constructor
      · intro survives
        exact absurd rfl survives
      · intro preceded
        obtain ⟨e, nowhere, -⟩ := preceded [] d rest rfl both
        cases nowhere
    · rw [if_neg both]
      -- only what comes behind `d` can be in both sets
      have shift : (∀ before e after, d :: rest = before ++ e :: after → e ∈ old_value.defines →
          ∃ e' ∈ before, ¬Typed e') ↔ ∀ before e after, rest = before ++ e :: after →
          e ∈ old_value.defines → ¬Typed d ∨ ∃ e' ∈ before, ¬Typed e' := by
        constructor
        · rintro preceded before e after rfl shared
          obtain ⟨e', member, untyped⟩ := preceded (d :: before) e after rfl shared
          rcases List.mem_cons.mp member with rfl | earlier
          · exact Or.inl untyped
          · exact Or.inr ⟨e', earlier, untyped⟩
        · rintro preceded before e after whole shared
          cases before with
          | nil =>
            cases whole
            exact absurd shared both
          | cons first before =>
            cases whole
            rcases preceded before e after rfl shared with untyped | ⟨e', earlier, untyped⟩
            · exact ⟨d, List.mem_cons_self, untyped⟩
            · exact ⟨e', List.mem_cons_of_mem _ earlier, untyped⟩
      rw [shift]
      by_cases typed : Typed d
      · rw [if_pos typed]
        simp only [typed, not_true_eq_false, false_or]
        exact ih _
      · rw [if_neg typed]
        simp [typed, bind, Except.bind]

/-! ### A reload -/

/-- What the listener makes of every logger, when it returns. -/
theorem listener_spec {m m' : LoggerManager} {old_value new_value : LogDefines}
    (ran : listener m old_value new_value = .ok m') (name : String) :
    m'.loggers name =
      match new_value.named name, old_value.named name with
      | some d, _ => some (applied d ((m.loggers name).getD (.new name)))
      | none, some _ => some (retired ((m.loggers name).getD (.new name)))
      | none, none => m.loggers name := by
  obtain ⟨mid, defined, removed⟩ := bind_eq_ok.mp ran
  obtain ⟨mid', defined', define_spec⟩ :=
    define_loop old_value new_value m (define_loop_ok defined)
  rw [defined] at defined'
  cases defined'
  obtain ⟨last, removed', remove_spec⟩ := remove_loop old_value new_value mid
  rw [removed] at removed'
  cases removed'
  rw [remove_spec, define_spec]
  -- the second loop leaves what the first one has set up
  cases added : new_value.named name with
  | some d =>
    obtain ⟨-, rfl⟩ := new_value.named_eq_some.mp added
    cases known : old_value.named d.name with
    | some e =>
      obtain ⟨-, same⟩ := old_value.named_eq_some.mp known
      simp [same, added]
    | none => rfl
  | none =>
    cases known : old_value.named name with
    | some e =>
      obtain ⟨-, rfl⟩ := old_value.named_eq_some.mp known
      simp [added]
    | none => rfl

/-- The listener returns when no definition is in both sets and all types are known. -/
theorem listener_returns (m : LoggerManager) {old_value new_value : LogDefines}
    (fresh : ∀ d ∈ new_value.defines, d ∉ old_value.defines ∧ Typed d) :
    ∃ m', listener m old_value new_value = .ok m' := by
  obtain ⟨mid, defined, -⟩ := define_loop old_value new_value m fresh
  obtain ⟨m', removed, -⟩ := remove_loop old_value new_value mid
  exact ⟨m', bind_eq_ok.mpr ⟨mid, defined, removed⟩⟩

theorem listener_null (m : LoggerManager) (old_value new_value : LogDefines) :
    listener m old_value new_value ≠ .error .nullLogger ↔
      new_value.defines.foldlM (define old_value) m ≠ .error .nullLogger := by
  unfold listener
  cases defined : new_value.defines.foldlM (define old_value) m with
  | error fault => simp [bind, Except.bind]
  | ok mid =>
    obtain ⟨m', removed, -⟩ := remove_loop old_value new_value mid
    simp [bind, Except.bind, removed]

/-- The appender that a definition asks for. -/
structure Made (logger : Logger) (a : LogAppenderDefine) (ap : LogAppender) : Prop where
  kind : a.type = 1 ∧ ap.kind = .FileoutLogAppender a.file ∨
    a.type = 2 ∧ ap.kind = .StdoutLogAppender
  level : ap.level = a.level.toNat
  formatter : ap.formatter =
    if usable a.formatter then some (.new a.formatter) else logger.formatter

/-- The loggers after a reload. -/
structure Reloaded (m m' : LoggerManager) (old_value new_value : LogDefines) : Prop where
  changed : ∀ d ∈ new_value.defines, d ∉ old_value.defines →
    ∃ logger, m'.loggers d.name = some logger ∧ logger.level = d.level.toNat ∧
      List.Forall₂ (Made logger) d.appenders logger.appenders
  unchanged : ∀ d ∈ new_value.defines, d ∈ old_value.defines →
    m'.loggers d.name = m.loggers d.name
  removed : ∀ d ∈ old_value.defines, (∀ e ∈ new_value.defines, e.name ≠ d.name) →
    ∃ logger, m'.loggers d.name = some logger ∧ logger.level = 100 ∧ logger.appenders = []

/-- The listener never uses a null logger, it returns when all types are known, and the loggers
are then as the new definitions say. -/
structure Reloads (m : LoggerManager) (old_value new_value : LogDefines) : Prop where
  pointer : listener m old_value new_value ≠ .error .nullLogger
  returns : (∀ d ∈ new_value.defines, Typed d) →
    ∃ m', listener m old_value new_value = .ok m'
  loggers : ∀ m', listener m old_value new_value = .ok m' → Reloaded m m' old_value new_value

theorem made_of_typed (logger : Logger) (formatter : Option LogFormatter)
    (lent : logger.formatter = formatter) (appenders : List LogAppenderDefine)
    (typed : ∀ a ∈ appenders, a.type = 1 ∨ a.type = 2) :
    List.Forall₂ (Made logger) appenders (appenders.filterMap fun a =>
      (appenderOf a).map (attached formatter a)) := by
  subst lent
  induction appenders with
  | nil => exact List.Forall₂.nil
  | cons a rest ih =>
    have others := ih fun b member => typed b (List.mem_cons_of_mem _ member)
    obtain ⟨ap, made⟩ :=
      Option.isSome_iff_exists.mp ((appenderOf_isSome a).mpr (typed a List.mem_cons_self))
    rw [List.filterMap_cons, made]
    refine List.Forall₂.cons ⟨?_, attached_level _ a ap, attached_formatter _ a ap⟩ others
    rw [attached_kind]
    rcases appenderOf_eq_some made with ⟨file, rfl⟩ | ⟨terminal, rfl⟩
    · exact .inl ⟨file, rfl⟩
    · exact .inr ⟨terminal, rfl⟩

theorem reloaded_of_returned {m m' : LoggerManager} {old_value new_value : LogDefines}
    (ran : listener m old_value new_value = .ok m') : Reloaded m m' old_value new_value := by
  obtain ⟨mid, defined, -⟩ := bind_eq_ok.mp ran
  have fresh := define_loop_ok defined
  constructor
  · intro d member _
    have found := listener_spec ran d.name
    rw [new_value.named_eq_some.mpr ⟨member, rfl⟩] at found
    exact ⟨_, found, rfl, made_of_typed _ _ rfl d.appenders (fresh d member).2⟩
  · intro d member shared
    exact absurd shared (fresh d member).1
  · intro d member gone
    have found := listener_spec ran d.name
    have absent : new_value.named d.name = none := ofKey_eq_none.mpr gone
    rw [absent, old_value.named_eq_some.mpr ⟨member, rfl⟩] at found
    exact ⟨_, found, rfl, rfl⟩

/-- The listener reloads two sets as it should exactly when no definition is in both of them, but
for one behind a definition with an appender of an unknown type, where it stops. -/
theorem reloads_iff (m : LoggerManager) (old_value new_value : LogDefines) :
    Reloads m old_value new_value ↔
      ∀ before d after, new_value.defines = before ++ d :: after → d ∈ old_value.defines →
        ∃ e ∈ before, ¬Typed e := by
  rw [← define_loop_null old_value new_value.defines m, ← listener_null]
  constructor
  · exact Reloads.pointer
  · intro pointer
    refine ⟨pointer, fun typed => listener_returns m ?_, fun m' ran => reloaded_of_returned ran⟩
    intro d member
    refine ⟨fun shared => ?_, typed d member⟩
    -- a shared definition would have to stand behind one with an unknown type
    obtain ⟨before, after, whole⟩ := List.append_of_mem member
    obtain ⟨e, earlier, untyped⟩ :=
      (define_loop_null old_value new_value.defines m).mp
        ((listener_null m old_value new_value).mp pointer) before d after whole shared
    apply untyped
    apply typed
    rw [whole]
    exact List.mem_append_left _ earlier

/-- A definition that stays as it was while another is added. -/
theorem unchanged_definition_uses_null :
    ∃ old_value new_value : LogDefines, old_value ≠ new_value ∧
      ¬Reloads .new old_value new_value := by
  let system : LogDefine := ⟨"system", .INFO, "", [⟨2, .INFO, "", ""⟩]⟩
  let web : LogDefine := ⟨"web", .DEBUG, "", []⟩
  refine ⟨⟨[system], List.pairwise_singleton _ _⟩, ⟨[system, web], by decide⟩, ?_, ?_⟩
  · intro same
    have lengths := congrArg (fun set => set.defines.length) same
    cases lengths
  · intro reloads
    exact reloads.pointer rfl

end LogIniter

end Dwframe
