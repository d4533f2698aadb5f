import Dwframe.Log.Logger
import Dwframe.Lib.Run
import Dwframe.Lib.Monad

/-!
# Formatters of attached appenders

An appender is an object of its own: it can be given a formatter before and after it is attached,
attached twice, detached and attached again. `has_formatter` says whether the formatter is its
own; one lent by the logger stays with it when it is detached. `Dwframe.Log.Logger` holds
appenders by value, which is this model as long as no appender is attached twice.
-/
namespace Dwframe

open Lib Lib.Run

inductive AppenderFault where
  /-- `m_formatter->format` with a null `m_formatter`. -/
  | nullFormatter
  deriving DecidableEq, Repr

/-- `log` of an appender: the formatter it uses, if the level is high enough. -/
def LogAppender.log (appender : LogAppender) (level : Nat) :
    Except AppenderFault (Option LogFormatter) :=
  if level ≥ appender.level then
    match appender.formatter with
    | none => .error .nullFormatter
    | some formatter => .ok (some formatter)
  else .ok none

/-- A logger and the appender objects, by address. -/
structure SharedLogger where
  level : Nat
  formatter : Option LogFormatter
  appenders : List Nat
  object : Nat → LogAppender

inductive LoggerCall where
  | addAppender (appender : Nat)
  | delAppender (appender : Nat)
  /-- `Logger::setFormatter` with a pointer. -/
  | setFormatterPtr (logFormatter : Option LogFormatter)
  /-- `Logger::setFormatter` with a pattern. -/
  | setFormatter (logFormatter : String)
  /-- `LogAppender::setFormatter`. -/
  | own (appender : Nat) (val : Option LogFormatter)
  | log (level : Nat)

namespace SharedLogger

/-- A new logger; its appenders are new as well. -/
def start (kind : Nat → LogAppenderKind) : SharedLogger :=
  ⟨LogLevel.DEBUG.toNat, some (.new Logger.defaultPattern), [], fun a => .new (kind a)⟩

/-- `SetFormatter` of one appender. -/
def lend (object : Nat → LogAppender) (a : Nat) (val : Option LogFormatter) : Nat → LogAppender :=
  Function.update object a ((object a).SetFormatter val)

def addAppender (s : SharedLogger) (appender : Nat) : SharedLogger :=
  let object :=
    if (s.object appender).formatter.isNone then lend s.object appender s.formatter else s.object
  { s with object := object, appenders := s.appenders ++ [appender] }

/-- `delAppender` erases the first entry. -/
def delAppender (s : SharedLogger) (appender : Nat) : SharedLogger :=
  { s with appenders := s.appenders.erase appender }

def setFormatterPtr (s : SharedLogger) (logFormatter : Option LogFormatter) : SharedLogger :=
  { s with
    formatter := logFormatter
    object := s.appenders.foldl (fun object i =>
      if (object i).has_formatter then object else lend object i logFormatter) s.object }

def setFormatter (s : SharedLogger) (logFormatter : String) : SharedLogger :=
  let logf := LogFormatter.new logFormatter
  if logf.isError then s else s.setFormatterPtr (some logf)

def own (s : SharedLogger) (appender : Nat) (val : Option LogFormatter) : SharedLogger :=
  { s with object := Function.update s.object appender ((s.object appender).setFormatter val) }

/-- `log`; without appenders it goes to `m_root`, which has others. -/
def log (s : SharedLogger) (level : Nat) : Except AppenderFault (List (Option LogFormatter)) :=
  if level ≥ s.level then s.appenders.mapM fun a => (s.object a).log level else .ok []

def step (s : SharedLogger) : LoggerCall → Except AppenderFault SharedLogger
  | .addAppender a => .ok (s.addAppender a)
  | .delAppender a => .ok (s.delAppender a)
  | .setFormatterPtr f => .ok (s.setFormatterPtr f)
  | .setFormatter pattern => .ok (s.setFormatter pattern)
  | .own a val => .ok (s.own a val)
  | .log level => do
    let _ ← s.log level
    return s

/-! ### Which formatter an appender should have -/

def give (a : Nat) (val : Option LogFormatter) : LoggerCall → Option LogFormatter
  | .own b val' => if b = a then val' else val
  | _ => val

/-- The formatter that `LogAppender::setFormatter` gave last. -/
def given (a : Nat) (history : List LoggerCall) : Option LogFormatter :=
  history.foldl (give a) none

/-- Every attached appender has a formatter: its own, or else the logger's. -/
def Dressed (history : List LoggerCall) (s : SharedLogger) : Prop :=
  ∀ a ∈ s.appenders, (s.object a).formatter = (given a history).or s.formatter ∧
    (s.object a).formatter ≠ none

/-- The call takes no formatter away from an attached appender, and attaches none that has an
earlier one of the logger. -/
def Ok (s : SharedLogger) : LoggerCall → Prop
  | .addAppender a =>
    (s.object a).has_formatter = true ∨
      s.formatter ≠ none ∧
        ((s.object a).formatter = none ∨ (s.object a).formatter = s.formatter)
  | .setFormatterPtr f => f ≠ none ∨ ∀ a ∈ s.appenders, (s.object a).has_formatter = true
  | .own a val => val ≠ none ∨ a ∉ s.appenders
  | .delAppender _ | .setFormatter _ | .log _ => True

/-- `has_formatter` says that the formatter is the appender's own. -/
structure Tracks (history : List LoggerCall) (s : SharedLogger) : Prop where
  flag : ∀ a, (s.object a).has_formatter = (given a history).isSome
  mine : ∀ a f, given a history = some f → (s.object a).formatter = some f

variable {s s' : SharedLogger} {history : List LoggerCall} {a b : Nat}

theorem given_append (history : List LoggerCall) (call : LoggerCall) :
    given a (history ++ [call]) = give a (given a history) call := by
  rw [given, List.foldl_append]
  rfl

/-! ### What each call does to an appender -/

theorem lend_same (object : Nat → LogAppender) (a : Nat) (f : Option LogFormatter) :
    lend object a f a = (object a).SetFormatter f := Function.update_self ..

theorem lend_other (object : Nat → LogAppender) (f : Option LogFormatter) (other : b ≠ a) :
    lend object a f b = object b := Function.update_of_ne other ..

theorem addAppender_object (s : SharedLogger) (a b : Nat) :
    (s.addAppender a).object b =
      if b = a ∧ (s.object b).formatter = none then (s.object b).SetFormatter s.formatter
      else s.object b := by
  show (if (s.object a).formatter.isNone then lend s.object a s.formatter else s.object) b = _
  by_cases same : b = a
  · subst same
    cases has : (s.object b).formatter with
    | none => exact (lend_same _ _ _).trans (if_pos ⟨rfl, rfl⟩).symm
    | some f => exact (if_neg fun both => nomatch both.2).symm
  · have neither : ¬(b = a ∧ (s.object b).formatter = none) := fun both => same both.1
    rw [if_neg neither]
    split
    · exact lend_other _ _ same
    · rfl

/-- What the loop of `setFormatter` makes of an appender. -/
theorem setFormatterPtr_object (s : SharedLogger) (f : Option LogFormatter) (a : Nat) :
    (s.setFormatterPtr f).object a =
      if a ∈ s.appenders ∧ (s.object a).has_formatter = false then (s.object a).SetFormatter f
      else s.object a := by
  show s.appenders.foldl _ s.object a = _
  generalize s.appenders = appenders, s.object = object
  induction appenders generalizing object with
  | nil => exact (if_neg fun both => List.not_mem_nil both.1).symm
  | cons i rest ih =>
    rw [List.foldl_cons, ih]
    by_cases same : a = i
    · subst same
      cases flag : (object a).has_formatter with
      | true =>
        have own : (if true then object else lend object a f) a = object a := rfl
        have kept : ¬(a ∈ rest ∧ (object a).has_formatter = false) := by
          rw [flag]
          exact fun both => nomatch both.2
        rw [own, if_neg kept]
        exact (if_neg fun both => nomatch both.2).symm
      | false =>
        -- lending twice is lending once
        have lent : (if false then object else lend object a f) a = (object a).SetFormatter f :=
          lend_same object a f
        rw [lent, if_pos (⟨List.mem_cons_self, rfl⟩ : a ∈ a :: rest ∧ false = false)]
        split <;> rfl
    · have kept : (if (object i).has_formatter then object else lend object i f) a = object a := by
        split
        · rfl
        · exact lend_other _ _ same
      simp only [kept, List.mem_cons, same, false_or]

theorem own_object (s : SharedLogger) (a : Nat) (val : Option LogFormatter) (b : Nat) :
    (s.own a val).object b = if a = b then (s.object b).setFormatter val else s.object b := by
  by_cases same : a = b
  · subst same
    rw [if_pos rfl]
    exact Function.update_self ..
  · rw [if_neg same]
    exact Function.update_of_ne (Ne.symm same) ..

/-- An appender as the logger leaves it: its own formatter stays, and so does the flag. -/
structure Keeps (before after : LogAppender) : Prop where
  flag : after.has_formatter = before.has_formatter
  mine : ∀ f, before.has_formatter = true → before.formatter = some f → after.formatter = some f

theorem Keeps.same (appender : LogAppender) : Keeps appender appender := ⟨rfl, fun _ _ => id⟩

theorem addAppender_keeps (s : SharedLogger) (a b : Nat) :
    Keeps (s.object b) ((s.addAppender a).object b) := by
  rw [addAppender_object]
  split
  next lent =>
    refine ⟨rfl, fun f _ mine => ?_⟩
    rw [lent.2] at mine
    cases mine
  next => exact .same _

theorem setFormatterPtr_keeps (s : SharedLogger) (f : Option LogFormatter) (a : Nat) :
    Keeps (s.object a) ((s.setFormatterPtr f).object a) := by
  rw [setFormatterPtr_object]
  split
  next lent =>
    refine ⟨rfl, fun _ flag _ => ?_⟩
    rw [lent.2] at flag
    cases flag
  next => exact .same _

theorem setFormatter_cases (s : SharedLogger) (pattern : String) :
    s.setFormatter pattern = s ∨ ∃ f, s.setFormatter pattern = s.setFormatterPtr (some f) := by
  rw [setFormatter]
  split
  · exact Or.inl rfl
  · exact Or.inr ⟨_, rfl⟩

theorem setFormatter_keeps (s : SharedLogger) (pattern : String) (a : Nat) :
    Keeps (s.object a) ((s.setFormatter pattern).object a) := by
  rcases setFormatter_cases s pattern with same | ⟨f, same⟩ <;> rw [same]
  · exact .same _
  · exact setFormatterPtr_keeps s _ a

/-! ### The flag -/

theorem Tracks.keeps {call : LoggerCall} (tracks : Tracks history s)
    (silent : ∀ a, given a (history ++ [call]) = given a history)
    (keeps : ∀ a, Keeps (s.object a) (s'.object a)) : Tracks (history ++ [call]) s' := by
  constructor
  · intro a
    rw [silent, (keeps a).flag, tracks.flag]
  · intro a f mine
    rw [silent] at mine
    apply (keeps a).mine f
    · rw [tracks.flag, mine]
      rfl
    · exact tracks.mine a f mine

theorem Tracks.step {call : LoggerCall} (tracks : Tracks history s)
    (stepped : s.step call = .ok s') : Tracks (history ++ [call]) s' := by
  cases call with
  | addAppender a =>
    cases stepped
    exact tracks.keeps (fun _ => given_append _ _) (addAppender_keeps s a)
  | delAppender a =>
    cases stepped
    exact tracks.keeps (fun _ => given_append _ _) fun _ => .same _
  | setFormatterPtr f =>
    cases stepped
    exact tracks.keeps (fun _ => given_append _ _) (setFormatterPtr_keeps s f)
  | setFormatter pattern =>
    cases stepped
    exact tracks.keeps (fun _ => given_append _ _) (setFormatter_keeps s pattern)
  | own b val =>
    cases stepped
    constructor
    · intro a
      rw [own_object, given_append, give]
      by_cases same : b = a
      · rw [if_pos same, if_pos same]
        rfl
      · rw [if_neg same, if_neg same]
        exact tracks.flag a
    · intro a f
      rw [own_object, given_append, give]
      by_cases same : b = a
      · rw [if_pos same, if_pos same]
        exact id
      · rw [if_neg same, if_neg same]
        exact tracks.mine a f
  | log level =>
    have unchanged : s' = s := by
      rw [SharedLogger.step] at stepped
      cases logged : s.log level with
      | error fault => rw [logged] at stepped; cases stepped
      | ok outputs => rw [logged] at stepped; cases stepped; rfl
    subst unchanged
    exact tracks.keeps (fun _ => given_append _ _) fun _ => .same _

theorem tracks_of_calls {kind : Nat → LogAppenderKind}
    (ran : Run.calls step (start kind) history = .ok s) : Tracks history s := by
  induction history using List.reverseRecOn generalizing s with
  | nil =>
    cases ran
    exact ⟨fun _ => rfl, fun _ _ => nofun⟩
  | append_singleton history call ih =>
    obtain ⟨mid, before, stepped⟩ := calls_snoc.mp ran
    exact (ih before).step stepped

/-! ### Attached appenders -/

/-- An attached appender has its own formatter or that of its logger. -/
def Wears (appender : LogAppender) (formatter : Option LogFormatter) : Prop :=
  appender.has_formatter = true ∨ appender.formatter = formatter ∧ formatter ≠ none

theorem Tracks.dressed_iff (tracks : Tracks history s) :
    Dressed history s ↔ ∀ a ∈ s.appenders, Wears (s.object a) s.formatter := by
  apply forall₂_congr
  intro a _
  rw [Wears, tracks.flag a]
  -- one of its own is there because the flag says so
  cases mine : given a history with
  | none =>
    rw [Option.none_or]
    constructor
    · rintro ⟨same, some⟩
      exact Or.inr ⟨same, same ▸ some⟩
    · rintro (own | ⟨same, some⟩)
      · cases own
      · exact ⟨same, same.symm ▸ some⟩
  | some f =>
    refine iff_of_true ⟨tracks.mine a f mine, ?_⟩ (Or.inl rfl)
    rw [tracks.mine a f mine]
    nofun

theorem addAppender_wears (s : SharedLogger) (a : Nat) :
    Wears ((s.addAppender a).object a) s.formatter ↔ Ok s (.addAppender a) := by
  rw [addAppender_object, Wears, Ok]
  by_cases bare : (s.object a).formatter = none
  · rw [if_pos ⟨rfl, bare⟩]
    show _ ∨ s.formatter = s.formatter ∧ _ ↔ _
    simp only [true_and, bare, true_or, and_true]
    exact Iff.rfl
  · have kept : ¬(a = a ∧ (s.object a).formatter = none) := fun both => bare both.2
    rw [if_neg kept]
    simp only [bare, false_or, and_comm]

theorem setFormatterPtr_wears (s : SharedLogger) (f : Option LogFormatter) {a : Nat}
    (attached : a ∈ s.appenders) :
    Wears ((s.setFormatterPtr f).object a) f ↔ (s.object a).has_formatter = true ∨ f ≠ none := by
  rw [setFormatterPtr_object, Wears]
  cases flag : (s.object a).has_formatter with
  | true =>
    have kept : ¬(a ∈ s.appenders ∧ true = false) := fun both => nomatch both.2
    rw [if_neg kept, flag]
    exact iff_of_true (Or.inl rfl) (Or.inl rfl)
  | false =>
    rw [if_pos ⟨attached, rfl⟩]
    show (s.object a).has_formatter = true ∨ f = f ∧ f ≠ none ↔ _
    rw [flag]
    simp only [true_and]

theorem own_wears (s : SharedLogger) (a : Nat) {val : Option LogFormatter} :
    Wears ((s.own a val).object a) s.formatter ↔ val ≠ none := by
  rw [own_object, if_pos rfl, Wears]
  show val.isSome = true ∨ val = s.formatter ∧ s.formatter ≠ none ↔ val ≠ none
  cases val with
  | none =>
    refine iff_of_false ?_ fun some => some rfl
    rintro (own | ⟨same, some⟩)
    · cases own
    · exact some same.symm
  | some f => exact iff_of_true (Or.inl rfl) nofun

theorem log_returns (s : SharedLogger) (level : Nat)
    (dressed : ∀ a ∈ s.appenders, (s.object a).formatter ≠ none) : s.step (.log level) = .ok s := by
  have each : ∀ appenders : List Nat, (∀ a ∈ appenders, (s.object a).formatter ≠ none) →
      ∃ outputs, (appenders.mapM fun a => (s.object a).log level) = Except.ok outputs := by
    intro appenders dressed
    induction appenders with
    | nil => exact ⟨[], rfl⟩
    | cons a rest ih =>
      obtain ⟨first, others⟩ := List.forall_mem_cons.mp dressed
      obtain ⟨outputs, ran⟩ := ih others
      obtain ⟨output, logged⟩ : ∃ output, (s.object a).log level = .ok output := by
        obtain ⟨f, has⟩ := Option.ne_none_iff_exists'.mp first
        rw [LogAppender.log, has]
        split <;> exact ⟨_, rfl⟩
      refine ⟨output :: outputs, ?_⟩
      rw [List.mapM_cons]
      exact bind_eq_ok.mpr ⟨output, logged, bind_eq_ok.mpr ⟨outputs, ran, rfl⟩⟩
  obtain ⟨outputs, ran⟩ := each s.appenders dressed
  rw [step, log]
  split
  · rw [ran]
    rfl
  · rfl

/-- A call leaves every attached appender with the formatter it should have if and only if it
meets the condition. -/
theorem step_dressed_iff {call : LoggerCall} (tracks : Tracks history s)
    (dressed : Dressed history s) :
    (∃ s', s.step call = .ok s' ∧ Dressed (history ++ [call]) s') ↔ Ok s call := by
  have wears := tracks.dressed_iff.mp dressed
  -- the call returns one state, and there only the formatters that are worn count
  have result : ∀ s', s.step call = .ok s' → ((∃ t, s.step call = .ok t ∧
      Dressed (history ++ [call]) t) ↔ ∀ a ∈ s'.appenders, Wears (s'.object a) s'.formatter) := by
    intro s' stepped
    rw [← (tracks.step stepped).dressed_iff]
    constructor
    · rintro ⟨t, same, dressed'⟩
      cases stepped.symm.trans same
      exact dressed'
    · intro dressed'
      exact ⟨s', stepped, dressed'⟩
  cases call with
  | addAppender a =>
    rw [result _ rfl, ← addAppender_wears]
    constructor
    · intro all
      exact all a (List.mem_append_right _ (List.mem_singleton_self a))
    · intro added b attached
      by_cases same : b = a
      · exact same ▸ added
      · have kept : (s.addAppender a).object b = s.object b := by
          rw [addAppender_object, if_neg fun both => same both.1]
        rw [kept]
        rcases List.mem_append.mp attached with before | last
        · exact wears b before
        · exact absurd (List.mem_singleton.mp last) same
  | delAppender a =>
    rw [result _ rfl]
    exact iff_of_true (fun b attached => wears b (List.mem_of_mem_erase attached)) trivial
  | setFormatterPtr f =>
    rw [result _ rfl, Ok]
    have each : (∀ a ∈ s.appenders, Wears ((s.setFormatterPtr f).object a) f) ↔
        ∀ a ∈ s.appenders, (s.object a).has_formatter = true ∨ f ≠ none :=
      forall₂_congr fun a attached => setFormatterPtr_wears s f attached
    apply each.trans
    constructor
    · intro all
      by_cases some : f ≠ none
      · exact Or.inl some
      · exact Or.inr fun a attached => (all a attached).resolve_right some
    · rintro (some | own) a attached
      · exact Or.inr some
      · exact Or.inl (own a attached)
  | setFormatter pattern =>
    rw [result _ rfl]
    refine iff_of_true ?_ trivial
    rcases setFormatter_cases s pattern with same | ⟨f, same⟩ <;> rw [same]
    · exact wears
    · exact fun a attached => (setFormatterPtr_wears s _ attached).mpr (Or.inr nofun)
  | own a val =>
    rw [result _ rfl, Ok]
    -- a null formatter is harmless on an appender that is not attached
    have others : ∀ b ∈ s.appenders, b ≠ a → Wears ((s.own a val).object b) s.formatter := by
      intro b attached other
      rw [own_object, if_neg (Ne.symm other)]
      exact wears b attached
    constructor
    · intro all
      by_cases attached : a ∈ s.appenders
      · exact Or.inl ((own_wears s a).mp (all a attached))
      · exact Or.inr attached
    · rintro (some | detached) b attached <;> by_cases same : b = a
      · exact same ▸ (own_wears s a).mpr some
      · exact others b attached same
      · exact absurd (same ▸ attached) detached
      · exact others b attached same
  | log level =>
    have returns := log_returns s level fun a attached => (dressed a attached).2
    rw [result _ returns]
    exact iff_of_true wears trivial

/-- Throughout a run every attached appender has its own formatter or else that of the logger, and
`log` finds one, if and only if no call takes the formatter of an attached appender away or
attaches one with an earlier formatter of the logger. -/
theorem dressed_iff_legal (kind : Nat → LogAppenderKind) (calls : List LoggerCall) :
    (∀ n, ∃ s, Run.calls step (start kind) (calls.take n) = .ok s ∧ Dressed (calls.take n) s) ↔
      Legal step Ok (start kind) calls := by
  apply legal_iff_prefixes
  · exact fun a attached => absurd attached List.not_mem_nil
  · exact fun history s call ran dressed => step_dressed_iff (tracks_of_calls ran) dressed

/-- An appender that was detached while the logger changed keeps the earlier formatter. -/
theorem reattached_stale (kind : Nat → LogAppenderKind) (f : LogFormatter) :
    ∃ s, Run.calls step (start kind)
        [.addAppender 0, .delAppender 0, .setFormatterPtr (some f), .addAppender 0] = .ok s ∧
      s.appenders = [0] ∧ s.formatter = some f ∧
      (s.object 0).formatter = some (.new Logger.defaultPattern) :=
  ⟨_, rfl, rfl, rfl, rfl⟩

/-- An appender whose formatter is cleared is left without one, and `log` dereferences it. -/
theorem formatter_cleared :
    Run.calls step (start fun _ => .StdoutLogAppender) [.addAppender 0, .own 0 none, .log 4] =
      .error .nullFormatter :=
  rfl

/-! ### The logger that holds its appenders by value -/

/-- The logger with the appenders as they are. -/
def toLogger (name : String) (s : SharedLogger) : Logger :=
  ⟨name, s.level, s.appenders.map s.object, s.formatter⟩

theorem toLogger_setFormatterPtr (name : String) (s : SharedLogger) (f : Option LogFormatter) :
    (s.setFormatterPtr f).toLogger name = (s.toLogger name).setFormatterPtr f := by
  have each : s.appenders.map (s.setFormatterPtr f).object =
      (s.appenders.map s.object).map fun i => if i.has_formatter then i else i.SetFormatter f := by
    rw [List.map_map]
    apply List.map_congr_left
    intro a attached
    rw [setFormatterPtr_object, Function.comp_apply]
    cases flag : (s.object a).has_formatter with
    | true => exact if_neg fun both => nomatch both.2
    | false => exact if_pos ⟨attached, rfl⟩
  show Logger.mk name s.level (s.appenders.map (s.setFormatterPtr f).object) f = _
  rw [each]
  rfl

theorem toLogger_setFormatter (name : String) (s : SharedLogger) (pattern : String) :
    (s.setFormatter pattern).toLogger name = (s.toLogger name).setFormatter pattern := by
  rw [setFormatter, Logger.setFormatter]
  split
  · rfl
  · exact toLogger_setFormatterPtr name s _

theorem toLogger_addAppender (name : String) (s : SharedLogger) {a : Nat}
    (fresh : a ∉ s.appenders) :
    (s.addAppender a).toLogger name = (s.toLogger name).addAppender (s.object a) := by
  have others : s.appenders.map (s.addAppender a).object = s.appenders.map s.object := by
    apply List.map_congr_left
    intro b attached
    have other : ¬(b = a ∧ (s.object b).formatter = none) := fun both => fresh (both.1 ▸ attached)
    rw [addAppender_object, if_neg other]
  have added : (s.addAppender a).object a =
      if (s.object a).formatter.isNone then (s.object a).SetFormatter s.formatter
      else s.object a := by
    rw [addAppender_object]
    cases (s.object a).formatter with
    | none => exact if_pos ⟨rfl, rfl⟩
    | some f => exact if_neg fun both => nomatch both.2
  show Logger.mk name s.level ((s.appenders ++ [a]).map (s.addAppender a).object) s.formatter = _
  rw [List.map_append, others, List.map_singleton, added]
  rfl

end SharedLogger

end Dwframe
