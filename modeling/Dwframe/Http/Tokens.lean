import Mathlib.Data.List.Find
import Mathlib.Order.Basic
import Dwframe.Http.Parser

/-!
# The tokens of a head

What the machine reports of a head, by position in the head and not in any buffer: `tokens` runs
the machine and keeps, for every action, the positions marked before it. `Report.calls` is the
callback that a report comes to when the head arrives in several reads: a token whose start was
marked in an earlier read begins with the read in which it is reported, except that the start
of a query keeps its distance from the beginning of the earlier read.
-/
namespace Dwframe.Http

/-! ### Callbacks read only their own text -/

theorem stdString_append {start : Bytes} {length : Int} (fits : length ≤ start.length)
    (more : Bytes) : stdString (start ++ more) length = stdString start length := by
  unfold stdString
  split
  · rfl
  · rw [List.take_append_of_le_length (by omega)]

theorem strncmpEq_append (literal more : Bytes) : ∀ (start : Bytes) {n : Nat},
    n ≤ start.length → strncmpEq (start ++ more) literal n = strncmpEq start literal n := by
  induction literal with
  | nil =>
    intro start n fits
    cases n with
    | zero => simp [strncmpEq]
    | succ n =>
      cases start with
      | nil => simp at fits
      | cons a as => simp [strncmpEq]
  | cons l ls ih =>
    intro start n fits
    cases n with
    | zero => simp [strncmpEq]
    | succ n =>
      cases start with
      | nil => simp at fits
      | cons a as =>
        simp only [List.cons_append, strncmpEq]
        rw [ih as (by simpa using fits)]

private theorem isPrefixOf_append {b : UInt8} (more : Bytes) : ∀ {name start : Bytes},
    b ∉ name → b ∈ start → name.isPrefixOf (start ++ more) = name.isPrefixOf start := by
  intro name
  induction name with
  | nil => intros; rfl
  | cons l ls ih =>
    intro start absent present
    cases start with
    | nil => simp at present
    | cons a as =>
      simp only [List.cons_append, List.isPrefixOf]
      cases same : l == a with
      | false => rfl
      | true =>
        rw [beq_iff_eq] at same
        -- the space is still ahead, since this byte matched one of the name
        have later : b ∈ as := by
          rcases List.mem_cons.mp present with rfl | later
          · exact absurd (same ▸ List.mem_cons_self) absent
          · exact later
        rw [ih (fun found => absent (List.mem_cons_of_mem l found)) later]

theorem methods_without_space : ∀ entry ∈ httpMethodMap, (32 : UInt8) ∉ entry.1 := by
  decide

/-- Bytes behind a space do not change the method. -/
theorem charsToHttpMethod_append {start : Bytes} (space : 32 ∈ start) (more : Bytes) :
    charsToHttpMethod (start ++ more) = charsToHttpMethod start := by
  have same : httpMethodMap.find? (fun entry => entry.1.isPrefixOf (start ++ more)) =
      httpMethodMap.find? fun entry => entry.1.isPrefixOf start :=
    List.find?_congr fun entry member =>
      isPrefixOf_append more (methods_without_space entry member) space
  rw [charsToHttpMethod, same, charsToHttpMethod]

namespace Received

theorem on_element_append (r : Received) {e : Element} {start : Bytes} {length : Int}
    (fits : length ≤ start.length) (space : e = .requestMethod → 32 ∈ start) (more : Bytes) :
    r.on (.element e (start ++ more) length) = r.on (.element e start length) := by
  cases e with
  | requestMethod => simp only [on, onRequestMethod, charsToHttpMethod_append (space rfl)]
  | requestUri => rfl
  | fragment | requestPath | queryString =>
    simp only [on, onRequestFragment, onRequestPath, onRequestQuery, onText,
      stdString_append fits]
  | httpVersion =>
    simp only [on, onRequestVersion, strncmpEq_append _ more start (n := length.toNat) (by omega)]

theorem on_field_append (r : Received) {field value : Bytes} {flen vlen : Int}
    (nameFits : flen ≤ field.length) (valueFits : vlen ≤ value.length) (more : Bytes) :
    r.on (.field (field ++ more) flen (value ++ more) vlen) =
      r.on (.field field flen value vlen) := by
  simp only [on, onRequestHttpField, stdString_append nameFits, stdString_append valueFits]

/-- An error stays recorded. -/
theorem on_error {r after : Received} {call : Callback} (applied : r.on call = some after)
    (failed : r.error ≠ 0) : after.error ≠ 0 := by
  cases call with
  | element e start length =>
    cases e with
    | requestMethod =>
      simp only [on, onRequestMethod] at applied
      split at applied <;> cases applied
      · exact Nat.succ_ne_zero _
      · exact failed
    | requestUri =>
      cases applied
      exact failed
    | fragment | requestPath | queryString =>
      simp only [on, onRequestFragment, onRequestPath, onRequestQuery, onText,
        Option.map_eq_some_iff] at applied
      obtain ⟨text, -, rfl⟩ := applied
      exact failed
    | httpVersion =>
      simp only [on, onRequestVersion] at applied
      split at applied
      · cases applied
        exact failed
      · split at applied <;> cases applied
        · exact failed
        · exact Nat.succ_ne_zero _
  | field field flen value vlen =>
    simp only [on, onRequestHttpField] at applied
    split at applied
    · cases applied
      exact failed
    · simp only [Option.bind_eq_bind, Option.bind_eq_some_iff] at applied
      obtain ⟨key, -, val, -, stored⟩ := applied
      cases stored
      exact failed

theorem foldlM_on_error {calls : List Callback} : ∀ {r after : Received},
    calls.foldlM on r = some after → r.error ≠ 0 → after.error ≠ 0 := by
  induction calls with
  | nil =>
    intro r after applied failed
    cases applied
    exact failed
  | cons call calls ih =>
    intro r after applied failed
    simp only [List.foldlM_cons, Option.bind_eq_bind, Option.bind_eq_some_iff] at applied
    obtain ⟨next, first, later⟩ := applied
    exact ih later (on_error first failed)

end Received

/-! ### Reports -/

/-- The positions marked so far. The name of a header is kept with both its ends. -/
structure Marks where
  mark : Nat := 0
  fieldStart : Nat := 0
  nameStart : Nat := 0
  nameEnd : Nat := 0
  query : Option Nat := none
  deriving DecidableEq, Repr

namespace Marks

def after (pos : Nat) (marks : Marks) : ParserAction → Marks
  | .mark | .startValue => { marks with mark := pos }
  | .startField => { marks with fieldStart := pos }
  | .writeField => { marks with nameStart := marks.fieldStart, nameEnd := pos }
  | .startQuery => { marks with query := some pos }
  | _ => marks

/-- Nothing is marked behind `pos`. -/
structure Within (marks : Marks) (pos : Nat) : Prop where
  mark : marks.mark ≤ pos
  fieldStart : marks.fieldStart ≤ pos
  nameStart : marks.nameStart ≤ marks.nameEnd
  nameEnd : marks.nameEnd ≤ pos
  query : ∀ q ∈ marks.query, q ≤ pos

theorem Within.after {marks : Marks} {pos : Nat} (within : marks.Within pos)
    (action : ParserAction) : (marks.after pos action).Within pos := by
  obtain ⟨mark, fieldStart, nameStart, nameEnd, query⟩ := within
  cases action with
  | mark | startValue => exact ⟨le_rfl, fieldStart, nameStart, nameEnd, query⟩
  | startField => exact ⟨mark, le_rfl, nameStart, nameEnd, query⟩
  | writeField => exact ⟨mark, fieldStart, fieldStart, le_rfl, query⟩
  | startQuery =>
    refine ⟨mark, fieldStart, nameStart, nameEnd, ?_⟩
    rintro q ⟨⟩
    exact le_rfl
  | _ => exact ⟨mark, fieldStart, nameStart, nameEnd, query⟩

theorem Within.mono {marks : Marks} {pos later : Nat} (within : marks.Within pos)
    (le : pos ≤ later) : marks.Within later :=
  ⟨within.mark.trans le, within.fieldStart.trans le, within.nameStart, within.nameEnd.trans le,
    fun q found => (within.query q found).trans le⟩

end Marks

/-- An action performed at `pos`, with the marks before it. -/
structure Report where
  action : ParserAction
  marks : Marks
  pos : Nat
  deriving DecidableEq, Repr

def reportsOf (pos : Nat) : Marks → List ParserAction → List Report
  | _, [] => []
  | marks, action :: actions =>
    ⟨action, marks, pos⟩ :: reportsOf pos (marks.after pos action) actions

/-- The reports of the machine up to `done`; `none` if it is not reached. -/
def tokens (relaxed : Bool) : Nat → Marks → Nat → Bytes → Option (List Report)
  | _, _, _, [] => none
  | cs, marks, pos, b :: rest =>
    match delta relaxed cs b with
    | none => none
    | some (target, actions) =>
      if .done ∈ actions then some (reportsOf pos marks actions)
      else (tokens relaxed target (actions.foldl (Marks.after pos) marks) (pos + 1) rest).map
        (reportsOf pos marks actions ++ ·)

/-- The reports of a head that the grammar accepts. -/
def headTokens (relaxed : Bool) (head : Bytes) : Option (List Report) :=
  tokens relaxed startState {} 0 head

namespace Report

/-- Where the text marked at `position` starts in the read of the report; `base` gives the start
of the read that a position belongs to. -/
def clip (base : Nat → Nat) (r : Report) (position : Nat) : Nat := max (base r.pos) position

/-- An element callback on the text since `mark`, in a buffer that begins at `origin`. -/
def marked (text : Bytes) (origin : Nat) (base : Nat → Nat) (r : Report) (element : Element) :
    List Callback :=
  [.element element (text.drop (r.clip base r.marks.mark - origin))
    (HttpParser.len (r.clip base r.marks.mark) r.pos)]

/-- The start of a query is kept across reads, at its distance from the start of its own. -/
def queryFrom (base : Nat → Nat) (r : Report) (q : Nat) : Nat := base r.pos + (q - base q)

/-- The callbacks of a report whose buffer begins at `origin`. -/
def calls (text : Bytes) (origin : Nat) (base : Nat → Nat) (r : Report) : List Callback :=
  match r.action with
  | .requestMethod => r.marked text origin base .requestMethod
  | .requestUri => r.marked text origin base .requestUri
  | .fragment => r.marked text origin base .fragment
  | .requestPath => r.marked text origin base .requestPath
  | .httpVersion => r.marked text origin base .httpVersion
  | .queryString => r.marks.query.toList.map fun q =>
      .element .queryString (text.drop (r.queryFrom base q - origin))
        (HttpParser.len (r.queryFrom base q) r.pos)
  | .writeValue => [.field (text.drop (r.clip base r.marks.fieldStart - origin))
      (HttpParser.len (r.clip base r.marks.nameStart) (r.clip base r.marks.nameEnd))
      (text.drop (r.clip base r.marks.mark - origin))
      (HttpParser.len (r.clip base r.marks.mark) r.pos)]
  | _ => []

/-- The positions a report takes text from; `on_request_uri` takes none. -/
def starts (r : Report) : List Nat :=
  match r.action with
  | .requestMethod | .fragment | .requestPath | .httpVersion => [r.marks.mark]
  | .queryString => r.marks.query.toList
  | .writeValue => [r.marks.fieldStart, r.marks.nameStart, r.marks.mark]
  | _ => []

/-- What holds of every report made at the byte `b`. -/
structure Sound (r : Report) (b : UInt8) : Prop where
  within : r.marks.Within r.pos
  query : r.action = .queryString → r.marks.query.isSome
  named : r.action = .writeValue → r.marks.nameStart = r.marks.fieldStart
  space : r.action = .requestMethod → b = 32

end Report

/-! ### The invariant of the machine -/

/-- What the state says about the marks before the byte at `pos`. -/
structure Marks.Inv (marks : Marks) (cs pos : Nat) : Prop where
  within : marks.Within pos
  started : inQuery cs = true → marks.query.isSome
  named : inValue cs = true → marks.nameStart = marks.fieldStart
  running : cs < firstFinal
  alive : cs ≠ errorState

theorem initial_inv : ({} : Marks).Inv startState 0 :=
  ⟨⟨le_rfl, le_rfl, le_rfl, le_rfl, by simp⟩, by decide, by decide, by decide, by decide⟩

/-- The marks are ready for the actions: a query is started, and a name written, before it is
reported. -/
private structure Ready (marks : Marks) (actions : List ParserAction) : Prop where
  query : .queryString ∈ actions →
    marks.query.isSome ∨ actions.head? = some ParserAction.startQuery
  named : .writeValue ∈ actions →
    .startField ∉ actions ∧ marks.nameStart = marks.fieldStart

private theorem Ready.tail {marks : Marks} {action : ParserAction} {actions : List ParserAction}
    (ready : Ready marks (action :: actions)) (pos : Nat) :
    Ready (marks.after pos action) actions := by
  constructor
  · intro later
    left
    -- marked before, or marked by this very action
    rcases ready.query (.tail _ later) with marked | first
    · cases action with
      | startQuery => rfl
      | _ => exact marked
    · cases first
      rfl
  · intro later
    obtain ⟨absent, same⟩ := ready.named (.tail _ later)
    refine ⟨fun found => absent (.tail _ found), ?_⟩
    cases action with
    | startField => simp at absent
    | writeField => rfl
    | _ => exact same

private theorem reportsOf_ready {b : UInt8} {pos : Nat} : ∀ {actions : List ParserAction}
    {marks : Marks}, marks.Within pos → Ready marks actions →
    (.requestMethod ∈ actions → b = 32) →
    ∀ r ∈ reportsOf pos marks actions, r.pos = pos ∧ r.Sound b := by
  intro actions
  induction actions with
  | nil => simp [reportsOf]
  | cons action actions ih =>
    intro marks within ready space r member
    simp only [reportsOf, List.mem_cons] at member
    rcases member with rfl | later
    · refine ⟨rfl, within, ?_, ?_, ?_⟩
      · rintro rfl
        exact (ready.query List.mem_cons_self).resolve_right (by simp)
      · rintro rfl
        exact (ready.named List.mem_cons_self).2
      · rintro rfl
        exact space List.mem_cons_self
    · exact ih (within.after action) (ready.tail pos) (fun found => space (.tail _ found)) r later

/-- The reports of one transition are sound. -/
theorem reportsOf_sound {b : UInt8} {marks : Marks} {cs pos target : Nat}
    {actions : List ParserAction} (inv : marks.Inv cs pos)
    (regular : Regular cs b target actions) :
    ∀ r ∈ reportsOf pos marks actions, r.pos = pos ∧ r.Sound b := by
  refine reportsOf_ready inv.within ⟨?_, ?_⟩ regular.space
  · intro reported
    cases inside : inQuery cs with
    | true => exact .inl (inv.started inside)
    | false => exact .inr (regular.query inside reported)
  · intro reported
    -- the state says that a name was written and no other one started
    obtain ⟨inside, absent⟩ := regular.value reported
    exact ⟨absent, inv.named inside⟩

private theorem foldl_within {pos : Nat} : ∀ {actions : List ParserAction} {marks : Marks},
    marks.Within pos → (actions.foldl (Marks.after pos) marks).Within pos := by
  intro actions
  induction actions with
  | nil => exact fun within => within
  | cons action actions ih => exact fun within => ih (within.after action)

private theorem foldl_started {pos : Nat} : ∀ {actions : List ParserAction} {marks : Marks},
    marks.query.isSome ∨ .startQuery ∈ actions →
    (actions.foldl (Marks.after pos) marks).query.isSome := by
  intro actions
  induction actions with
  | nil => intro marks started; simpa using started
  | cons action actions ih =>
    intro marks started
    apply ih
    rcases started with marked | found
    · left
      cases action with
      | startQuery => rfl
      | _ => exact marked
    · rcases List.mem_cons.mp found with rfl | later
      · exact .inl rfl
      · exact .inr later

private theorem foldl_named {pos : Nat} : ∀ {actions : List ParserAction} {marks : Marks},
    .startField ∉ actions → .writeField ∈ actions ∨ marks.nameStart = marks.fieldStart →
    (actions.foldl (Marks.after pos) marks).nameStart =
      (actions.foldl (Marks.after pos) marks).fieldStart := by
  intro actions
  induction actions with
  | nil => intro marks _ named; simpa using named
  | cons action actions ih =>
    intro marks absent named
    apply ih (fun found => absent (.tail _ found))
    cases action with
    | startField => simp at absent
    | writeField => exact .inr rfl
    | _ => exact named.imp_left (by simp)

/-- A transition that is not the last keeps the invariant. -/
theorem step_inv {b : UInt8} {marks : Marks} {cs pos target : Nat} {actions : List ParserAction}
    (inv : marks.Inv cs pos) (regular : Regular cs b target actions) (more : .done ∉ actions) :
    (actions.foldl (Marks.after pos) marks).Inv target (pos + 1) := by
  refine ⟨(foldl_within inv.within).mono (Nat.le_succ pos), ?_, ?_, ?_, regular.alive⟩
  · intro inside
    apply foldl_started
    by_contra unmarked
    rw [not_or] at unmarked
    -- a query that is neither marked nor being marked cannot be open
    have outside : inQuery cs = false := by
      cases before : inQuery cs with
      | true => exact absurd (inv.started before) unmarked.1
      | false => rfl
    rw [regular.started outside unmarked.2] at inside
    cases inside
  · intro inside
    obtain ⟨absent, named⟩ := regular.named inside
    exact foldl_named absent (named.imp_right inv.named)
  · exact regular.running inv.running more

/-- No report of a head uses a position behind its own. -/
theorem tokens_within {relaxed : Bool} : ∀ {bs : Bytes} {cs pos : Nat} {marks : Marks}
    {reports : List Report}, marks.Inv cs pos → tokens relaxed cs marks pos bs = some reports →
    ∀ r ∈ reports, r.marks.Within r.pos := by
  intro bs
  induction bs with
  | nil => simp [tokens]
  | cons b bs ih =>
    intro cs pos marks reports inv scanned r member
    simp only [tokens] at scanned
    split at scanned
    next => cases scanned
    next target actions moved =>
      have regular := delta_regular moved
      split at scanned
      next last =>
        cases scanned
        exact (reportsOf_sound inv regular r member).2.within
      next notLast =>
        rw [Option.map_eq_some_iff] at scanned
        obtain ⟨later, scannedLater, rfl⟩ := scanned
        rcases List.mem_append.mp member with first | second
        · exact (reportsOf_sound inv regular r first).2.within
        · exact ih (step_inv inv regular notLast) scannedLater r second

end Dwframe.Http
