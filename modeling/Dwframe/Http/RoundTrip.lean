import Dwframe.Http.RequestText
import Dwframe.Http.Tokens

/-!
# Reading a printed request

The parser over the text of `dump`, piece by piece: `Consumes` says what one piece does to the
state of the machine and to the request, whatever follows it. Most bytes only move the machine
(`glide`); an action stands at the ends of a token, and the text of the token is then what the
buffer holds since its start.
-/
open Dwframe.Lib

namespace Dwframe.Http

/-! ### The rest of a buffer -/

/-- The parser from position `p` on: its registers, the bytes read, and what the callbacks
stored; `none` where one throws. -/
def parseFrom (text : Bytes) (parser : HttpParser) (received : Received) (p : Nat) (rest : Bytes) :
    Option (HttpParser × Nat × Received) :=
  let executed := HttpParser.exec text parser p rest
  (executed.calls.foldlM Received.on received).map fun received =>
    (executed.parser, executed.nread, received)

section ParseFrom

variable {text : Bytes} {parser performed : HttpParser} {received stored : Received} {p : Nat}
  {b : UInt8} {rest : Bytes} {target : Nat} {actions : List ParserAction} {calls : List Callback}

theorem parseFrom_step (moved : delta parser.uriRelaxed parser.cs b = some (target, actions))
    (more : .done ∉ actions)
    (acts : HttpParser.perform text p { parser with cs := target } actions = (performed, calls))
    (stores : calls.foldlM Received.on received = some stored) :
    parseFrom text parser received p (b :: rest) =
      parseFrom text performed stored (p + 1) rest := by
  simp only [parseFrom, HttpParser.exec, moved, if_neg more, acts, List.foldlM_append, stores,
    Option.bind_eq_bind, Option.bind_some]

theorem parseFrom_done (moved : delta parser.uriRelaxed parser.cs b = some (target, actions))
    (last : .done ∈ actions)
    (acts : HttpParser.perform text p { parser with cs := target } actions = (performed, calls))
    (stores : calls.foldlM Received.on received = some stored) :
    parseFrom text parser received p (b :: rest) = some (performed, p + 1, stored) := by
  simp only [parseFrom, HttpParser.exec, moved, if_pos last, acts, stores, Option.map_some]

theorem execute_eq (queryStart : Nat) (relaxed : Bool) (notEmpty : text ≠ []) :
    (HttpRequestParser.init queryStart relaxed).execute text =
      (parseFrom text (HttpParser.init queryStart relaxed).reset {} 0 text).map
        fun (parser, nread, received) => (⟨parser, received⟩, text.drop nread) := by
  simp only [HttpRequestParser.execute, HttpRequestParser.init, HttpParser.execute,
    if_neg notEmpty, parseFrom, Option.map_map]
  rfl

end ParseFrom

/-! ### Bytes without an action -/

/-- What is read without `uri_relaxed` is read in the same way with it. -/
theorem delta_of_strict {relaxed : Bool} {cs : Nat} {b : UInt8} {edge : Nat × List ParserAction}
    (moved : delta false cs b = some edge) : delta relaxed cs b = some edge := by
  unfold delta at moved ⊢
  split at moved
  next found => exact moved
  next => cases moved

def glideStep (relaxed : Bool) (cs : Nat) (b : UInt8) : Option Nat :=
  match delta relaxed cs b with
  | some (target, []) => some target
  | _ => none

/-- The state behind bytes that perform no action. -/
def glide (relaxed : Bool) (cs : Nat) (bs : Bytes) : Option Nat := bs.foldlM (glideStep relaxed) cs

theorem glideStep_eq_some {relaxed : Bool} {cs target : Nat} {b : UInt8} :
    glideStep relaxed cs b = some target ↔ delta relaxed cs b = some (target, []) := by
  unfold glideStep
  split
  next moved => rw [moved]; simp
  next other =>
    constructor
    · intro none
      cases none
    · intro moved
      exact absurd moved (other target)

theorem parseFrom_glide {text : Bytes} {received : Received} {rest : Bytes} {target : Nat}
    {bs : Bytes} : ∀ {parser : HttpParser} {p : Nat},
    glide parser.uriRelaxed parser.cs bs = some target →
    parseFrom text parser received p (bs ++ rest) =
      parseFrom text { parser with cs := target } received (p + bs.length) rest := by
  induction bs with
  | nil =>
    intro parser p glides
    cases glides
    rfl
  | cons b bs ih =>
    intro parser p glides
    simp only [glide, List.foldlM_cons, Option.bind_eq_bind, Option.bind_eq_some_iff] at glides
    obtain ⟨next, moved, later⟩ := glides
    rw [List.cons_append, parseFrom_step (glideStep_eq_some.mp moved) List.not_mem_nil rfl rfl,
      @ih { parser with cs := next } (p + 1) later, List.length_cons, Nat.add_assoc,
      Nat.add_comm 1]

/-- A token: its first byte sets registers, and the others only move the machine. -/
theorem parseFrom_token {text : Bytes} {received : Received} {rest bs : Bytes} {b : UInt8}
    {next target p : Nat} {actions : List ParserAction} {parser performed : HttpParser}
    (moved : delta parser.uriRelaxed parser.cs b = some (next, actions))
    (more : .done ∉ actions)
    (acts : HttpParser.perform text p { parser with cs := next } actions = (performed, []))
    (state : performed.cs = next) (flag : performed.uriRelaxed = parser.uriRelaxed)
    (glides : glide parser.uriRelaxed next bs = some target) :
    parseFrom text parser received p (b :: bs ++ rest) =
      parseFrom text { performed with cs := target } received (p + (b :: bs).length) rest := by
  -- the first byte leaves the state in which the others begin
  have later : glide performed.uriRelaxed performed.cs bs = some target := by
    rw [state, flag]
    exact glides
  rw [List.cons_append, parseFrom_step moved more acts rfl, parseFrom_glide later,
    List.length_cons, Nat.add_assoc, Nat.add_comm 1]

theorem glide_of_strict {relaxed : Bool} {bs : Bytes} : ∀ {cs target : Nat},
    glide false cs bs = some target → glide relaxed cs bs = some target := by
  induction bs with
  | nil => exact fun glides => glides
  | cons b bs ih =>
    intro cs target glides
    simp only [glide, List.foldlM_cons, Option.bind_eq_bind, Option.bind_eq_some_iff] at glides ⊢
    obtain ⟨next, moved, later⟩ := glides
    have step := @delta_of_strict relaxed _ _ _ (glideStep_eq_some.mp moved)
    exact ⟨next, glideStep_eq_some.mpr step, ih later⟩

/-- Bytes on which the state stays. -/
theorem glide_stay {relaxed : Bool} {cs : Nat} {bs : Bytes}
    (stays : ∀ b ∈ bs, delta false cs b = some (cs, [])) : glide relaxed cs bs = some cs := by
  induction bs with
  | nil => rfl
  | cons b bs ih =>
    have step := @delta_of_strict relaxed _ _ _ (stays b List.mem_cons_self)
    have first := glideStep_eq_some.mpr step
    have later := ih fun c member => stays c (.tail _ member)
    simp only [glide, List.foldlM_cons, first, Option.bind_eq_bind, Option.bind_some] at later ⊢
    exact later

/-! ### The edges of the head -/

private theorem forall_byte {holds : UInt8 → Prop} (all : ∀ n < 256, holds (UInt8.ofNat n))
    (b : UInt8) : holds b := by
  have known := all b.toNat b.toNat_lt
  rwa [UInt8.ofNat_toNat] at known

/-- All bytes from `lo` to `hi` lead to `target` with the actions, along edges in their order. -/
def covers (target : Nat) (actions : List ParserAction) : List Edge → Nat → Nat → Bool
  | [], _, _ => false
  | e :: rest, lo, hi =>
    if e.hi < lo then covers target actions rest lo hi
    else decide (e.lo ≤ lo) && e.target == target && e.actions == actions &&
      (decide (hi ≤ e.hi) || covers target actions rest (e.hi + 1) hi)

theorem find?_of_covers {target n hi : Nat} {actions : List ParserAction} {edges : List Edge}
    (high : n ≤ hi) : ∀ {lo : Nat}, covers target actions edges lo hi = true → lo ≤ n →
    ∃ e, edges.find? (fun e => decide (e.lo ≤ n ∧ n ≤ e.hi)) = some e ∧
      e.target = target ∧ e.actions = actions := by
  induction edges with
  | nil =>
    intro lo covered
    cases covered
  | cons e rest ih =>
    intro lo covered low
    rw [covers] at covered
    split at covered
    next passed =>
      rw [List.find?_cons_of_neg (by simp; omega)]
      exact ih covered low
    next =>
      simp only [Bool.and_eq_true, Bool.or_eq_true, decide_eq_true_eq, beq_iff_eq] at covered
      obtain ⟨⟨⟨begun, target⟩, actions⟩, more⟩ := covered
      by_cases inside : n ≤ e.hi
      · exact ⟨e, List.find?_cons_of_pos (by simp; omega), target, actions⟩
      · -- the rest of the range is left to the edges behind
        rw [List.find?_cons_of_neg (by simp; omega)]
        exact ih (more.resolve_left (by omega)) (by omega)

/-- One of these ranges holds the byte. -/
def inRanges (ranges : List (Nat × Nat)) (b : UInt8) : Bool :=
  ranges.any fun r => decide (r.1 ≤ b.toNat) && decide (b.toNat ≤ r.2)

theorem delta_of_covers {relaxed : Bool} {cs target : Nat} {actions : List ParserAction}
    {ranges : List (Nat × Nat)} {b : UInt8}
    (covered : ∀ r ∈ ranges, covers target actions (row cs) r.1 r.2 = true)
    (inside : inRanges ranges b) : delta relaxed cs b = some (target, actions) := by
  obtain ⟨r, member, range⟩ := List.any_eq_true.mp inside
  rw [Bool.and_eq_true, decide_eq_true_eq, decide_eq_true_eq] at range
  obtain ⟨e, found, rfl, rfl⟩ := find?_of_covers range.2 (covered r member) range.1
  rw [delta, found]

theorem inRanges_cons {r : Nat × Nat} {ranges : List (Nat × Nat)} {b : UInt8}
    (inside : inRanges ranges b) : inRanges (r :: ranges) b := by
  rw [inRanges, List.any_cons, Bool.or_eq_true]
  exact .inr inside

/-- Ranges that hold every byte of a class. -/
structure ByteRanges (plain : UInt8 → Bool) where
  ranges : List (Nat × Nat)
  inside : ∀ b, plain b → inRanges ranges b

private def pcharSpans : List (Nat × Nat) :=
  [(33, 33), (36, 36), (38, 46), (48, 59), (61, 61), (64, 90), (95, 95), (97, 122), (126, 126),
   (128, 255)]

private theorem inRanges_pchar (b : UInt8) (pchar : isPchar b) : inRanges pcharSpans b := by
  have marks : ∀ b ∈ bytes "-._~!$&'()*+,;=:@", inRanges pcharSpans b := by decide +kernel
  simp only [isPchar, isAlpha, isDigit, Bool.or_eq_true, Bool.and_eq_true, decide_eq_true_eq,
    UInt8.le_iff_toNat_le, UInt8.reduceToNat, List.contains_eq_mem] at pchar
  have range := b.toNat_lt
  rcases pchar with ((high | upper | lower) | digit) | mark
  · simp [inRanges, pcharSpans]
    omega
  · simp [inRanges, pcharSpans]
    omega
  · simp [inRanges, pcharSpans]
    omega
  · simp [inRanges, pcharSpans]
    omega
  · exact marks b mark

private def pcharRanges : ByteRanges isPchar := ⟨pcharSpans, inRanges_pchar⟩

private def pathRanges : ByteRanges isPathChar where
  ranges := (47, 47) :: pcharRanges.ranges
  inside := by
    intro b inside
    rw [isPathChar, Bool.or_eq_true, beq_iff_eq] at inside
    rcases inside with pchar | rfl
    · exact inRanges_cons (pcharRanges.inside b pchar)
    · rfl

private def queryRanges : ByteRanges isQueryChar where
  ranges := (63, 63) :: pathRanges.ranges
  inside := by
    intro b inside
    rw [isQueryChar, ← isPathChar, Bool.or_eq_true, beq_iff_eq] at inside
    rcases inside with path | rfl
    · exact inRanges_cons (pathRanges.inside b path)
    · rfl

private def xdigitRanges : ByteRanges isXdigit where
  ranges := [(48, 57), (65, 70), (97, 102)]
  inside := forall_byte (by decide +kernel)

private def tokenRanges : ByteRanges isToken where
  ranges := [(33, 33), (35, 39), (42, 43), (45, 46), (48, 57), (65, 90), (94, 122), (124, 124),
    (126, 126)]
  inside := forall_byte (by decide +kernel)

private def textRanges : ByteRanges (!isControl ·) where
  ranges := [(32, 126), (128, 255)]
  inside := forall_byte (by decide +kernel)

private def solidRanges : ByteRanges fun b => !isControl b && !isBlank b where
  ranges := [(33, 126), (128, 255)]
  inside := forall_byte (by decide +kernel)

private def only (n : Nat) : List (Nat × Nat) := [(n, n)]

private theorem inRanges_only (b : UInt8) : inRanges (only b.toNat) b := by
  simp [inRanges, only]

/-- The edges that the bytes of a printed request take behind its method: the bytes, the state, and
where they lead. -/
private def printedEdges :
    { edges : List (List (Nat × Nat) × Nat × Nat × List ParserAction) //
      ∀ e ∈ edges, ∀ r ∈ e.1, covers e.2.2.1 e.2.2.2 (row e.2.1) r.1 r.2 = true } where
  val :=
    -- the path, up to what ends it
    [(only 47, 3, 33, [.mark]), (pcharRanges.ranges, 33, 26, []), (only 37, 33, 27, []),
     (pathRanges.ranges, 26, 26, []), (only 37, 26, 27, []),
     (xdigitRanges.ranges, 27, 28, []), (xdigitRanges.ranges, 28, 26, []),
     (only 32, 33, 4, [.requestPath, .requestUri]), (only 32, 26, 4, [.requestPath, .requestUri]),
     (only 35, 33, 20, [.requestPath, .requestUri]),
     (only 35, 26, 20, [.requestPath, .requestUri]),
     (only 63, 33, 29, [.requestPath]), (only 63, 26, 29, [.requestPath]),
     -- the query
     (queryRanges.ranges, 29, 30, [.startQuery]), (only 37, 29, 31, [.startQuery]),
     (queryRanges.ranges, 30, 30, []), (only 37, 30, 31, []),
     (xdigitRanges.ranges, 31, 32, []), (xdigitRanges.ranges, 32, 30, []),
     (only 32, 30, 4, [.queryString, .requestUri]),
     (only 35, 30, 20, [.queryString, .requestUri]),
     -- the fragment
     (queryRanges.ranges, 20, 21, [.mark]), (only 37, 20, 22, [.mark]),
     (queryRanges.ranges, 21, 21, []), (only 37, 21, 22, []),
     (xdigitRanges.ranges, 22, 23, []), (xdigitRanges.ranges, 23, 21, []),
     (only 32, 21, 4, [.fragment]),
     -- the ends of the version and of the lines
     (only 72, 4, 5, [.mark]), (only 13, 12, 17, [.httpVersion]), (only 10, 17, 13, []),
     -- a header
     (tokenRanges.ranges, 13, 14, [.startField]), (tokenRanges.ranges, 14, 14, []),
     (only 58, 14, 15, [.writeField]), (only 32, 15, 15, [.startValue]),
     (solidRanges.ranges, 15, 16, [.startValue]), (textRanges.ranges, 16, 16, []),
     (only 13, 15, 17, [.startValue, .writeValue]), (only 13, 16, 17, [.writeValue]),
     -- the empty line
     (only 13, 13, 18, [.startField]), (only 10, 18, 348, [.done])]
  property := by decide +kernel

private theorem delta_printed {relaxed : Bool} {cs target : Nat} {actions : List ParserAction}
    {ranges : List (Nat × Nat)} {b : UInt8} (inside : inRanges ranges b)
    (listed : (ranges, cs, target, actions) ∈ printedEdges.val) :
    delta relaxed cs b = some (target, actions) :=
  delta_of_covers (printedEdges.property _ listed) inside

private theorem delta_class {relaxed : Bool} {cs target : Nat} {actions : List ParserAction}
    {plain : UInt8 → Bool} (class_ : ByteRanges plain)
    (listed : (class_.ranges, cs, target, actions) ∈ printedEdges.val) (b : UInt8)
    (inside : plain b) : delta relaxed cs b = some (target, actions) :=
  delta_printed (class_.inside b inside) listed

private theorem delta_only {relaxed : Bool} {cs target : Nat} {actions : List ParserAction}
    {b : UInt8} (listed : (only b.toNat, cs, target, actions) ∈ printedEdges.val) :
    delta relaxed cs b = some (target, actions) :=
  delta_printed (inRanges_only b) listed

/-- The states that read a part of a URI: `first` before its first byte, `loop` behind it, and the
two between a percent sign and its second digit. -/
structure UriStates (plain opens : UInt8 → Bool) (first loop pct digit : Nat)
    (actions : List ParserAction) : Prop where
  openChar : ∀ b, (plain b && opens b) = true → delta false first b = some (loop, actions)
  openPercent : delta false first 37 = some (pct, actions)
  char : ∀ b, plain b → delta false loop b = some (loop, [])
  percent : delta false loop 37 = some (pct, [])
  high : ∀ b, isXdigit b → delta false pct b = some (digit, [])
  low : ∀ b, isXdigit b → delta false digit b = some (loop, [])

theorem pathStates : UriStates isPathChar (· != 47) 33 26 27 28 [] where
  openChar := by
    intro b inside
    rw [Bool.and_eq_true, bne_iff_ne, isPathChar, Bool.or_eq_true, beq_iff_eq] at inside
    exact delta_class pcharRanges (by decide) b (inside.1.resolve_right inside.2)
  openPercent := delta_only (by decide)
  char := delta_class pathRanges (by decide)
  percent := delta_only (by decide)
  high := delta_class xdigitRanges (by decide)
  low := delta_class xdigitRanges (by decide)

theorem queryStates : UriStates isQueryChar (fun _ => true) 29 30 31 32 [.startQuery] where
  openChar := by
    intro b inside
    rw [Bool.and_true] at inside
    exact delta_class queryRanges (by decide) b inside
  openPercent := delta_only (by decide)
  char := delta_class queryRanges (by decide)
  percent := delta_only (by decide)
  high := delta_class xdigitRanges (by decide)
  low := delta_class xdigitRanges (by decide)

theorem fragmentStates : UriStates isQueryChar (fun _ => true) 20 21 22 23 [.mark] where
  openChar := by
    intro b inside
    rw [Bool.and_true] at inside
    exact delta_class queryRanges (by decide) b inside
  openPercent := delta_only (by decide)
  char := delta_class queryRanges (by decide)
  percent := delta_only (by decide)
  high := delta_class xdigitRanges (by decide)
  low := delta_class xdigitRanges (by decide)

namespace UriStates

variable {relaxed : Bool} {plain opens : UInt8 → Bool} {first loop pct digit : Nat}
  {actions : List ParserAction}

private theorem glide_percent (states : UriStates plain opens first loop pct digit actions)
    {high low : UInt8} {rest : Bytes} (one : isXdigit high) (two : isXdigit low)
    (later : Http.glide relaxed loop rest = some loop) :
    Http.glide relaxed pct (high :: low :: rest) = some loop := by
  have readHigh := glideStep_eq_some.mpr (@delta_of_strict relaxed _ _ _ (states.high _ one))
  have readLow := glideStep_eq_some.mpr (@delta_of_strict relaxed _ _ _ (states.low _ two))
  simp only [Http.glide, List.foldlM_cons, readHigh, readLow, Option.bind_eq_bind,
    Option.bind_some] at later ⊢
  exact later

/-- Behind its first byte a part of a URI only moves the machine. -/
theorem glide (states : UriStates plain opens first loop pct digit actions) {bs : Bytes}
    (uri : UriText plain bs) : Http.glide relaxed loop bs = some loop := by
  induction uri with
  | nil => rfl
  | char allowed more ih =>
    have moved := glideStep_eq_some.mpr (@delta_of_strict relaxed _ _ _ (states.char _ allowed))
    simp only [Http.glide, List.foldlM_cons, moved, Option.bind_eq_bind, Option.bind_some] at ih ⊢
    exact ih
  | encoded one two more ih =>
    have percent := glideStep_eq_some.mpr (@delta_of_strict relaxed _ _ _ states.percent)
    have digits := states.glide_percent one two ih
    rw [Http.glide, List.foldlM_cons, percent]
    exact digits

/-- The first byte performs the actions; the others only move the machine. -/
theorem enter (states : UriStates plain opens first loop pct digit actions)
    {b : UInt8} {rest : Bytes} (uri : UriText plain (b :: rest)) (opening : plain b → opens b) :
    ∃ next, delta relaxed first b = some (next, actions) ∧
      Http.glide relaxed next rest = some loop := by
  cases uri with
  | char allowed more =>
    have opened : (plain b && opens b) = true := by
      rw [allowed, opening allowed]
      rfl
    exact ⟨loop, delta_of_strict (states.openChar b opened), states.glide more⟩
  | encoded one two more =>
    exact ⟨pct, delta_of_strict states.openPercent,
      states.glide_percent one two (states.glide more)⟩

end UriStates

/-! ### Pieces of the text -/

private theorem drop_add {text piece rest : Bytes} {p : Nat} (here : text.drop p = piece ++ rest) :
    text.drop (p + piece.length) = rest := by
  rw [← List.drop_drop, here, List.drop_left]

/-- The text of a token that began at `p`. -/
private theorem stdString_token {text token rest : Bytes} {p : Nat}
    (here : text.drop p = token ++ rest) :
    stdString (text.drop p) (HttpParser.len p (p + token.length)) = some token := by
  have length : HttpParser.len p (p + token.length) = token.length := by
    simp only [HttpParser.len]
    omega
  rw [length, here, stdString, if_neg (by omega), Int.toNat_natCast, List.take_left]

/-- The callbacks of a text store it. -/
private theorem foldlM_text {e : Element} {set : HttpRequest → Bytes → HttpRequest}
    (stores : ∀ r start length, Received.on r (.element e start length) =
      Received.onText set r start length)
    {text token rest : Bytes} {p : Nat} (here : text.drop p = token ++ rest)
    (more : List Callback) (received : Received) :
    (Callback.element e (text.drop p) (HttpParser.len p (p + token.length)) :: more).foldlM
        Received.on received =
      more.foldlM Received.on { received with data := set received.data token } := by
  rw [List.foldlM_cons, stores, Received.onText, stdString_token here]
  rfl

/-- Reading `piece` in state `cs` leads to `target` and turns what is received into `stored`,
wherever the piece lies in the text. -/
def Consumes (text : Bytes) (relaxed : Bool) (piece : Bytes) (cs : Nat) (received : Received)
    (target : Nat) (stored : Received) : Prop :=
  ∀ (parser : HttpParser) (p : Nat) (rest : Bytes), parser.cs = cs → parser.uriRelaxed = relaxed →
    text.drop p = piece ++ rest → ∃ after : HttpParser, after.cs = target ∧
      after.uriRelaxed = relaxed ∧ parseFrom text parser received p (piece ++ rest) =
        parseFrom text after stored (p + piece.length) rest

section Pieces

variable {text : Bytes} {relaxed : Bool}

theorem Consumes.append {a b : Bytes} {cs mid target : Nat} {received between stored : Received}
    (first : Consumes text relaxed a cs received mid between)
    (second : Consumes text relaxed b mid between target stored) :
    Consumes text relaxed (a ++ b) cs received target stored := by
  intro parser p rest state flag here
  rw [List.append_assoc] at here ⊢
  obtain ⟨after, stateA, flagA, readA⟩ := first parser p _ state flag here
  obtain ⟨last, stateB, flagB, readB⟩ := second _ _ _ stateA flagA (drop_add here)
  refine ⟨last, stateB, flagB, ?_⟩
  rw [readA, readB, List.length_append, Nat.add_assoc]

theorem Consumes.nil {cs : Nat} {received : Received} :
    Consumes text relaxed [] cs received cs received :=
  fun parser _ _ state flag _ => ⟨parser, state, flag, rfl⟩

/-! ### The request line -/

theorem httpMethodToString_mem {m : HttpMethod} (known : m ≠ .INVALID_METHOD) :
    (httpMethodToString m, m) ∈ httpMethodMap := by
  have listed : (httpMethodMap.find? fun entry => entry.2 == m).isSome = true := by
    cases m <;> first | exact absurd rfl known | rfl
  obtain ⟨entry, found⟩ := Option.isSome_iff_exists.mp listed
  have same : entry.2 = m := by simpa using List.find?_some found
  rw [httpMethodToString, found]
  exact same ▸ List.mem_of_find?_eq_some found

/-- Every name but `M-SEARCH` is a `Method` of the grammar, and is found again. -/
private theorem methods_read : ∀ entry ∈ httpMethodMap, entry.2 ≠ .MSEARCH →
    entry.1.head?.bind (delta false startState) = some (2, [.mark]) ∧
      glide false 2 entry.1.tail = some (173 + entry.1.length) ∧
      delta false (173 + entry.1.length) 32 = some (3, [.requestMethod]) ∧
      charsToHttpMethod (entry.1 ++ [32]) = entry.2 := by
  decide +kernel

theorem consumes_method {m : HttpMethod} (known : m ≠ .INVALID_METHOD) (other : m ≠ .MSEARCH) :
    Consumes text relaxed (httpMethodToString m ++ bytes " ") startState {} 3
      { data := { method := m } } := by
  intro parser p rest state flag here
  obtain ⟨first, glides, space, found⟩ :=
    methods_read _ (httpMethodToString_mem known) other
  dsimp only at first glides space found
  generalize httpMethodToString m = name at here first glides space found ⊢
  rw [List.append_assoc] at here ⊢
  cases name with
  | nil => cases first
  | cons b name =>
    subst flag
    have start : delta parser.uriRelaxed parser.cs b = some (2, [.mark]) := by
      rw [state]
      exact delta_of_strict first
    let marked : HttpParser := { parser with cs := 173 + (b :: name).length, mark := p }
    have read : parseFrom text parser {} p (b :: name ++ 32 :: rest) =
        parseFrom text marked {} (p + (b :: name).length) (32 :: rest) :=
      parseFrom_token start (by decide) rfl rfl rfl (glide_of_strict glides)
    have method : charsToHttpMethod (text.drop p) = m := by
      have named : text.drop p = b :: name ++ [32] ++ rest := by
        rw [here, List.append_assoc]
        rfl
      rw [named, charsToHttpMethod_append (by simp), found]
    have report : [Callback.element .requestMethod (text.drop p)
        (HttpParser.len p (p + (b :: name).length))].foldlM Received.on {} =
          some { data := { method := m } } := by
      simp [Received.on, Received.onRequestMethod, method, known]
    have ends : parseFrom text marked {} (p + (b :: name).length) (32 :: rest) =
        parseFrom text { marked with cs := 3 } { data := { method := m } }
          (p + (b :: name).length + 1) rest :=
      parseFrom_step (delta_of_strict space) (by decide) rfl report
    refine ⟨{ marked with cs := 3 }, rfl, rfl, ?_⟩
    rw [List.length_append]
    exact read.trans ends

/-- A space or a hash ends what is being read, and stores it. -/
structure Ends (text : Bytes) (parser : HttpParser) (received : Received) (p : Nat)
    (stored : Received) : Prop where
  space : ∀ rest, parseFrom text parser received p (32 :: rest) =
    parseFrom text { parser with cs := 4 } stored (p + 1) rest
  hash : ∀ rest, parseFrom text parser received p (35 :: rest) =
    parseFrom text { parser with cs := 20 } stored (p + 1) rest

/-- In both states in which a path can end. -/
private theorem path_ends : ∀ cs ∈ [26, 33],
    delta false cs 32 = some (4, [.requestPath, .requestUri]) ∧
      delta false cs 35 = some (20, [.requestPath, .requestUri]) ∧
      delta false cs 63 = some (29, [.requestPath]) := by
  intro cs ending
  rw [List.mem_cons, List.mem_singleton] at ending
  rcases ending with rfl | rfl
  · exact ⟨delta_only (by decide), delta_only (by decide),
      delta_only (by decide)⟩
  · exact ⟨delta_only (by decide), delta_only (by decide),
      delta_only (by decide)⟩

private theorem query_ends :
    delta false 30 32 = some (4, [.queryString, .requestUri]) ∧
      delta false 30 35 = some (20, [.queryString, .requestUri]) :=
  ⟨delta_only (by decide), delta_only (by decide)⟩

private theorem glide_path {segments : Bytes} (uri : UriText isPathChar segments)
    (single : segments.head? ≠ some 47) : ∃ cs ∈ [26, 33], glide relaxed 33 segments = some cs := by
  cases segments with
  | nil => exact ⟨33, by simp, rfl⟩
  | cons b rest =>
    have opening : isPathChar b → (b != 47) = true := fun _ => by simpa using single
    obtain ⟨next, moved, later⟩ : ∃ next, delta relaxed 33 b = some (next, []) ∧
        glide relaxed next rest = some 26 := pathStates.enter uri opening
    refine ⟨26, by simp, ?_⟩
    simp only [glide, List.foldlM_cons, glideStep_eq_some.mpr moved, Option.bind_eq_bind,
      Option.bind_some]
    exact later

/-- A path, up to where it is reported. -/
theorem reads_path {segments rest : Bytes} {parser : HttpParser} {p : Nat} {received : Received}
    (uri : UriText isPathChar segments) (single : segments.head? ≠ some 47)
    (state : parser.cs = 3) (here : text.drop p = 47 :: segments ++ rest) :
    ∃ after : HttpParser, after.uriRelaxed = parser.uriRelaxed ∧
      parseFrom text parser received p (47 :: segments ++ rest) =
        parseFrom text after received (p + (47 :: segments).length) rest ∧
      Ends text after received (p + (47 :: segments).length)
        { received with data := { received.data with path := 47 :: segments } } ∧
      ∀ more, parseFrom text after received (p + (47 :: segments).length) (63 :: more) =
        parseFrom text { after with cs := 29 }
          { received with data := { received.data with path := 47 :: segments } }
          (p + (47 :: segments).length + 1) more := by
  obtain ⟨cs, ending, glides⟩ := @glide_path parser.uriRelaxed segments uri single
  obtain ⟨space, hash, question⟩ := path_ends cs ending
  have slash : delta parser.uriRelaxed parser.cs 47 = some (33, [.mark]) := by
    rw [state]
    exact delta_only (by decide)
  have report := @foldlM_text .requestPath (fun data path => { data with path }) (fun _ _ _ => rfl)
    text _ _ p here
  let after : HttpParser := { parser with cs := cs, mark := p }
  refine ⟨after, rfl, parseFrom_token slash (by decide) rfl rfl rfl glides, ⟨?_, ?_⟩, ?_⟩
  · intro more
    exact parseFrom_step (delta_of_strict space) (by decide) rfl (report [_] received)
  · intro more
    exact parseFrom_step (delta_of_strict hash) (by decide) rfl (report [_] received)
  · intro more
    exact parseFrom_step (delta_of_strict question) (by decide) rfl (report [] received)

/-- What stands between the path and the fragment. -/
theorem reads_query {query rest : Bytes} {parser : HttpParser} {p : Nat}
    {received stored : Received} (uri : UriText isQueryChar query)
    (here : text.drop p = (if query = [] then [] else bytes "?") ++ query ++ rest)
    (ends : Ends text parser received p stored)
    (question : ∀ more, parseFrom text parser received p (63 :: more) =
      parseFrom text { parser with cs := 29 } stored (p + 1) more)
    (unset : stored.data.query = []) :
    ∃ after : HttpParser, ∃ between, after.uriRelaxed = parser.uriRelaxed ∧
      parseFrom text parser received p
          ((if query = [] then [] else bytes "?") ++ query ++ rest) =
        parseFrom text after between
          (p + ((if query = [] then [] else bytes "?") ++ query).length) rest ∧
      Ends text after between (p + ((if query = [] then [] else bytes "?") ++ query).length)
        { stored with data := { stored.data with query := query } } := by
  cases query with
  | nil =>
    have same : { stored with data := { stored.data with query := [] } } = stored := by
      rw [← unset]
    exact ⟨parser, received, rfl, rfl, by rw [same]; exact ends⟩
  | cons b query =>
    rw [if_neg (List.cons_ne_nil b query)] at here ⊢
    -- the question mark reports the path, and the query begins behind it
    have begun : text.drop (p + 1) = b :: query ++ rest :=
      drop_add (here.trans (List.append_assoc _ _ _))
    obtain ⟨next, moved, later⟩ := queryStates.enter uri fun _ => rfl
    obtain ⟨space, hash⟩ := query_ends
    let opened : HttpParser := { parser with cs := 29 }
    let after : HttpParser := { parser with cs := 30, queryStart := p + 1 }
    have start : delta opened.uriRelaxed opened.cs b = some (next, [.startQuery]) := moved
    have read : parseFrom text opened stored (p + 1) (b :: query ++ rest) =
        parseFrom text after stored (p + 1 + (b :: query).length) rest :=
      parseFrom_token start (by decide) rfl rfl rfl later
    have report := @foldlM_text .queryString (fun data query => { data with query })
      (fun _ _ _ => rfl) text _ _ _ begun
    have length : p + (bytes "?" ++ b :: query).length = p + 1 + (b :: query).length := by
      rw [List.length_append, Nat.add_assoc]
      rfl
    rw [length]
    refine ⟨after, stored, rfl, (question _).trans read, ⟨?_, ?_⟩⟩
    · intro more
      exact parseFrom_step (delta_of_strict space) (by decide) rfl (report [_] stored)
    · intro more
      exact parseFrom_step (delta_of_strict hash) (by decide) rfl (report [_] stored)

/-- What stands between the query and the space. -/
theorem reads_fragment {fragment rest : Bytes} {parser : HttpParser} {p : Nat}
    {received stored : Received} (uri : UriText isQueryChar fragment)
    (here : text.drop p = (if fragment = [] then [] else bytes "#") ++ fragment ++ 32 :: rest)
    (ends : Ends text parser received p stored) (unset : stored.data.fragment = []) :
    ∃ after : HttpParser, after.cs = 4 ∧ after.uriRelaxed = parser.uriRelaxed ∧
      parseFrom text parser received p
          ((if fragment = [] then [] else bytes "#") ++ fragment ++ 32 :: rest) =
        parseFrom text after { stored with data := { stored.data with fragment := fragment } }
          (p + ((if fragment = [] then [] else bytes "#") ++ fragment).length + 1) rest := by
  cases fragment with
  | nil =>
    have same : { stored with data := { stored.data with fragment := [] } } = stored := by
      rw [← unset]
    rw [same]
    exact ⟨{ parser with cs := 4 }, rfl, rfl, ends.space rest⟩
  | cons b fragment =>
    rw [if_neg (List.cons_ne_nil b fragment)] at here ⊢
    -- the hash reports what came before it, and the fragment begins behind it
    have begun : text.drop (p + 1) = b :: fragment ++ 32 :: rest :=
      drop_add (here.trans (List.append_assoc _ _ _))
    obtain ⟨next, moved, later⟩ := fragmentStates.enter uri fun _ => rfl
    have space : delta parser.uriRelaxed 21 32 = some (4, [.fragment]) :=
      delta_only (by decide)
    let opened : HttpParser := { parser with cs := 20 }
    let marked : HttpParser := { parser with cs := 21, mark := p + 1 }
    have start : delta opened.uriRelaxed opened.cs b = some (next, [.mark]) := moved
    have read : parseFrom text opened stored (p + 1) (b :: fragment ++ 32 :: rest) =
        parseFrom text marked stored (p + 1 + (b :: fragment).length) (32 :: rest) :=
      parseFrom_token start (by decide) rfl rfl rfl later
    have report := @foldlM_text .fragment (fun data fragment => { data with fragment })
      (fun _ _ _ => rfl) text _ _ _ begun [] stored
    have stop : parseFrom text marked stored (p + 1 + (b :: fragment).length) (32 :: rest) =
        parseFrom text { marked with cs := 4 }
          { stored with data := { stored.data with fragment := b :: fragment } }
          (p + 1 + (b :: fragment).length + 1) rest :=
      parseFrom_step space (by decide) rfl report
    have length : p + (bytes "#" ++ b :: fragment).length = p + 1 + (b :: fragment).length := by
      rw [List.length_append, Nat.add_assoc]
      rfl
    rw [length]
    exact ⟨{ marked with cs := 4 }, rfl, rfl, (ends.hash _).trans (read.trans stop)⟩

theorem consumes_uri {request : OutgoingRequest} {m : HttpMethod} {segments : Bytes}
    (path : request.path = 47 :: segments) (uri : UriText isPathChar segments)
    (single : segments.head? ≠ some 47) (query : UriText isQueryChar request.query)
    (fragment : UriText isQueryChar request.fragment) :
    Consumes text relaxed (request.uri ++ bytes " ") 3 { data := { method := m } } 4
      { data := { method := m, path := request.path, query := request.query,
                  fragment := request.fragment } } := by
  intro parser p rest state flag here
  have pieces : request.uri ++ bytes " " ++ rest = 47 :: segments ++
      ((if request.query = [] then [] else bytes "?") ++ request.query ++
        ((if request.fragment = [] then [] else bytes "#") ++ request.fragment ++ 32 :: rest)) := by
    have blank : bytes " " = [32] := rfl
    rw [OutgoingRequest.uri, path, blank]
    simp only [List.append_assoc, List.cons_append, List.nil_append]
  rw [pieces] at here ⊢
  -- what is stored is reported by the byte behind each part: `?`, `#` or the space
  obtain ⟨one, flagOne, readPath, ends, question⟩ := @reads_path text segments _ parser p
    { data := { method := m } } uri single state here
  have behindPath := drop_add here
  obtain ⟨two, between, flagTwo, readQuery, endsTwo⟩ :=
    reads_query query behindPath ends question rfl
  have behindQuery := drop_add behindPath
  obtain ⟨after, stateAfter, flagAfter, readFragment⟩ :=
    reads_fragment fragment behindQuery endsTwo rfl
  refine ⟨after, stateAfter, (flagAfter.trans flagTwo).trans (flagOne.trans flag), ?_⟩
  rw [readPath, readQuery, readFragment, ← path]
  congr 1
  rw [OutgoingRequest.uri, path]
  simp only [List.length_append, Nat.add_assoc]
  rfl

private theorem glide_version : ∀ minor ∈ [48, 49],
    glide false 5 (bytes "TTP/1." ++ [minor]) = some 12 := by
  decide +kernel

theorem consumes_version {version : UInt8} {received : Received}
    (known : version = 0x10 ∨ version = 0x11) :
    Consumes text relaxed (versionText version ++ crlf) 4 received 13
      { received with data := { received.data with version := version } } := by
  intro parser p rest state flag here
  subst flag
  have start : delta parser.uriRelaxed parser.cs 72 = some (5, [.mark]) := by
    rw [state]
    exact delta_only (by decide)
  have ends : delta parser.uriRelaxed 12 13 = some (17, [.httpVersion]) :=
    delta_only (by decide)
  have feed : delta parser.uriRelaxed 17 10 = some (13, []) := delta_only (by decide)
  obtain ⟨minor, digit, spelled⟩ : ∃ minor ∈ [48, 49],
      versionText version = 72 :: (bytes "TTP/1." ++ [minor]) := by
    rcases known with rfl | rfl
    · exact ⟨48, by simp, by decide +kernel⟩
    · exact ⟨49, by simp, by decide +kernel⟩
  have stored : received.onRequestVersion (text.drop p) (HttpParser.len p (p + 8)) =
      some { received with data := { received.data with version := version } } := by
    have length : (HttpParser.len p (p + 8)).toNat = 8 := by
      simp only [HttpParser.len]
      omega
    have eight : (versionText version).length = 8 := by rw [spelled]; rfl
    -- what follows the version does not take part in the comparison
    rw [Received.onRequestVersion, length, here, List.append_assoc,
      strncmpEq_append _ _ _ (by omega), strncmpEq_append _ _ _ (by omega)]
    rcases known with rfl | rfl
    · rw [if_neg (by decide +kernel), if_pos (by decide +kernel)]
    · rw [if_pos (by decide +kernel)]
  let marked : HttpParser := { parser with cs := 12, mark := p }
  have read : parseFrom text parser received p
      (72 :: (bytes "TTP/1." ++ [minor]) ++ 13 :: 10 :: rest) =
        parseFrom text marked received (p + 8) (13 :: 10 :: rest) :=
    parseFrom_token start (by decide) rfl rfl rfl (glide_of_strict (glide_version minor digit))
  have report : [Callback.element .httpVersion (text.drop p)
      (HttpParser.len p (p + 8))].foldlM Received.on received =
        some { received with data := { received.data with version := version } } := by
    rw [List.foldlM_cons, Received.on, stored]
    rfl
  have cr := @parseFrom_step text marked _ received _ (p + 8) 13 (10 :: rest) _ _ _
    ends (by decide) rfl report
  have lf := @parseFrom_step text { marked with cs := 17 } _
    { received with data := { received.data with version := version } } _ (p + 8 + 1) 10 rest _ _
    _ feed (by decide) rfl rfl
  refine ⟨{ marked with cs := 13 }, rfl, rfl, ?_⟩
  rw [spelled, List.append_assoc]
  exact read.trans (cr.trans lf)

/-! ### The headers -/

private theorem header_states :
    (∀ b, isToken b → delta false 13 b = some (14, [.startField])) ∧
      (∀ b, isToken b → delta false 14 b = some (14, [])) ∧
      (∀ b, (!isControl b && !isBlank b) = true → delta false 15 b = some (16, [.startValue])) ∧
      (∀ b, isControl b = false → delta false 16 b = some (16, [])) := by
  refine ⟨delta_class tokenRanges (by decide), delta_class tokenRanges (by decide),
    delta_class solidRanges (by decide), fun b text => ?_⟩
  exact delta_class textRanges (by decide) b (by rw [text]; rfl)

private theorem header_ends : delta false 14 58 = some (15, [.writeField]) ∧
      delta false 15 32 = some (15, [.startValue]) ∧
      delta false 15 13 = some (17, [.startValue, .writeValue]) ∧
      delta false 16 13 = some (17, [.writeValue]) ∧ delta false 17 10 = some (13, []) :=
  ⟨delta_only (by decide), delta_only (by decide),
    delta_only (by decide), delta_only (by decide),
    delta_only (by decide)⟩

/-- The callback of a header stores it. -/
private theorem foldlM_field {name value between rest : Bytes} {p q : Nat} (named : name ≠ [])
    (here : text.drop p = name ++ between) (behind : text.drop q = value ++ rest)
    (received : Received) :
    [Callback.field (text.drop p) (HttpParser.len p (p + name.length)) (text.drop q)
        (HttpParser.len q (q + value.length))].foldlM Received.on received =
      some { received with
        data := { received.data with headers := setHeader name value received.data.headers } } := by
  have notEmpty : HttpParser.len p (p + name.length) ≠ 0 := by
    have length := List.length_pos_iff.mpr named
    simp only [HttpParser.len]
    omega
  simp only [List.foldlM_cons, List.foldlM_nil, Received.on, Received.onRequestHttpField,
    if_neg notEmpty, stdString_token here, stdString_token behind, Option.bind_eq_bind,
    Option.bind_some]
  rfl

/-- A value, up to the end of its line; `q` is where it begins. -/
private theorem reads_value {value rest : Bytes} {parser : HttpParser} {q : Nat}
    {received stored : Received} (control : ∀ b ∈ value, isControl b = false)
    (solid : ∀ b ∈ value.head?, isBlank b = false) (state : parser.cs = 15)
    (report : [Callback.field (text.drop parser.fieldStart) parser.fieldLen (text.drop q)
      (HttpParser.len q (q + value.length))].foldlM Received.on received = some stored) :
    ∃ after : HttpParser, after.cs = 17 ∧ after.uriRelaxed = parser.uriRelaxed ∧
      parseFrom text parser received q (value ++ 13 :: rest) =
        parseFrom text after stored (q + value.length + 1) rest := by
  obtain ⟨-, -, first, later⟩ := header_states
  obtain ⟨-, -, empty, last, -⟩ := header_ends
  cases value with
  | nil =>
    -- an empty value begins and ends at the line break
    have start : delta parser.uriRelaxed parser.cs 13 =
        some (17, [.startValue, .writeValue]) := by
      rw [state]
      exact delta_of_strict empty
    exact ⟨{ parser with cs := 17, mark := q }, rfl, rfl,
      parseFrom_step start (by decide) rfl report⟩
  | cons c value =>
    have opening : (!isControl c && !isBlank c) = true := by
      rw [control c List.mem_cons_self, solid c rfl]
      rfl
    have start : delta parser.uriRelaxed parser.cs c = some (16, [.startValue]) := by
      rw [state]
      exact delta_of_strict (first c opening)
    have glides : glide parser.uriRelaxed 16 value = some 16 :=
      glide_stay fun b member => later b (control b (.tail _ member))
    let marked : HttpParser := { parser with cs := 16, mark := q }
    have read : parseFrom text parser received q (c :: value ++ 13 :: rest) =
        parseFrom text marked received (q + (c :: value).length) (13 :: rest) :=
      parseFrom_token start (by decide) rfl rfl rfl glides
    have ends : parseFrom text marked received (q + (c :: value).length) (13 :: rest) =
        parseFrom text { marked with cs := 17 } stored (q + (c :: value).length + 1) rest :=
      parseFrom_step (delta_of_strict last) (by decide) rfl report
    exact ⟨{ marked with cs := 17 }, rfl, rfl, read.trans ends⟩

/-- The line of one header. -/
theorem consumes_header {header : Bytes × Bytes} (plain : HeaderText header)
    (received : Received) :
    Consumes text relaxed (header.1 ++ bytes ": " ++ header.2 ++ crlf) 13 received 13
      { received with data := { received.data with
          headers := setHeader header.1 header.2 received.data.headers } } := by
  intro parser p rest state flag here
  subst flag
  obtain ⟨name, value⟩ := header
  obtain ⟨named, token, control, solid⟩ := plain
  dsimp only at named token control solid here ⊢
  obtain ⟨first, later, -, -⟩ := header_states
  obtain ⟨colon, blank, -, -, feed⟩ := header_ends
  have pieces : name ++ bytes ": " ++ value ++ crlf ++ rest =
      name ++ (58 :: 32 :: (value ++ 13 :: 10 :: rest)) := by
    simp only [List.append_assoc]
    rfl
  rw [pieces] at here ⊢
  have behind : text.drop (p + name.length + 1 + 1) = value ++ 13 :: 10 :: rest := by
    rw [← List.drop_drop, ← List.drop_drop, drop_add here]
    rfl
  cases name with
  | nil => exact absurd rfl named
  | cons b name =>
    have start : delta parser.uriRelaxed parser.cs b = some (14, [.startField]) := by
      rw [state]
      exact delta_of_strict (first b (token b List.mem_cons_self))
    have glides : glide parser.uriRelaxed 14 name = some 14 :=
      glide_stay fun c member => later c (token c (.tail _ member))
    let opened : HttpParser := { parser with cs := 14, fieldStart := p }
    let written : HttpParser :=
      { opened with cs := 15, fieldLen := HttpParser.len p (p + (b :: name).length) }
    let ready : HttpParser := { written with mark := p + (b :: name).length + 1 }
    have readName : parseFrom text parser received p
        (b :: name ++ (58 :: 32 :: (value ++ 13 :: 10 :: rest))) =
          parseFrom text opened received (p + (b :: name).length)
            (58 :: 32 :: (value ++ 13 :: 10 :: rest)) :=
      parseFrom_token start (by decide) rfl rfl rfl glides
    have readColon : parseFrom text opened received (p + (b :: name).length)
        (58 :: 32 :: (value ++ 13 :: 10 :: rest)) =
          parseFrom text written received (p + (b :: name).length + 1)
            (32 :: (value ++ 13 :: 10 :: rest)) :=
      parseFrom_step (delta_of_strict colon) (by decide) rfl rfl
    have readBlank : parseFrom text written received (p + (b :: name).length + 1)
        (32 :: (value ++ 13 :: 10 :: rest)) =
          parseFrom text ready received (p + (b :: name).length + 1 + 1)
            (value ++ 13 :: 10 :: rest) :=
      parseFrom_step (delta_of_strict blank) (by decide) rfl rfl
    obtain ⟨after, stateAfter, flagAfter, readValue⟩ :=
      @reads_value text value (10 :: rest) ready (p + (b :: name).length + 1 + 1) received _
        control solid rfl (foldlM_field named here behind received)
    have lf : delta after.uriRelaxed after.cs 10 = some (13, []) := by
      rw [stateAfter]
      exact delta_of_strict feed
    have readFeed := @parseFrom_step text after _ { received with data := { received.data with
      headers := setHeader (b :: name) value received.data.headers } } _
      (p + (b :: name).length + 1 + 1 + value.length + 1) 10 rest _ _ _ lf (by decide) rfl rfl
    refine ⟨{ after with cs := 13 }, rfl, flagAfter, ?_⟩
    rw [readName, readColon, readBlank, readValue]
    refine readFeed.trans ?_
    congr 1
    simp only [List.length_append]
    have two : (bytes ": ").length = 2 ∧ crlf.length = 2 := ⟨rfl, rfl⟩
    omega

/-- The lines of the headers, in their order. -/
theorem consumes_headers {headers : List (Bytes × Bytes)} :
    ∀ {received : Received}, (∀ h ∈ headers, HeaderText h) →
    Consumes text relaxed (headers.flatMap fun h => h.1 ++ bytes ": " ++ h.2 ++ crlf) 13
      received
      13 { received with data := { received.data with
        headers := headers.foldl (fun map h => setHeader h.1 h.2 map) received.data.headers } } := by
  induction headers with
  | nil => exact fun _ => Consumes.nil
  | cons header headers ih =>
    intro received plain
    rw [List.flatMap_cons, List.foldl_cons]
    exact (consumes_header (plain header List.mem_cons_self) received).append
      (ih fun h member => plain h (.tail _ member))

/-- The empty line ends the head. -/
theorem parseFrom_end {parser : HttpParser} {p : Nat} {received : Received} {rest : Bytes}
    (state : parser.cs = 13) : ∃ after : HttpParser, after.cs = firstFinal ∧
      parseFrom text parser received p (crlf ++ rest) = some (after, p + 2, received) := by
  have cr : delta parser.uriRelaxed parser.cs 13 = some (18, [.startField]) := by
    rw [state]
    exact delta_only (by decide)
  have lf : delta parser.uriRelaxed 18 10 = some (348, [.done]) :=
    delta_only (by decide)
  let opened : HttpParser := { parser with cs := 18, fieldStart := p }
  have first : parseFrom text parser received p (crlf ++ rest) =
      parseFrom text opened received (p + 1) (10 :: rest) :=
    parseFrom_step cr (by decide) rfl rfl
  have last : parseFrom text opened received (p + 1) (10 :: rest) =
      some ({ opened with cs := 348 }, p + 1 + 1, received) :=
    parseFrom_done lf (by decide) rfl rfl
  exact ⟨{ opened with cs := 348 }, rfl, first.trans last⟩

end Pieces

/-! ### The whole text -/

namespace OutgoingRequest

variable {request : OutgoingRequest}

/-- The headers in the order in which they are printed. -/
private def entries (request : OutgoingRequest) : List (Bytes × Bytes) :=
  (bytes "connection", if request.close then bytes "close" else bytes "keep-alive") ::
    request.headers ++
    if request.body = [] then [] else [(bytes "content-length", toDecimal request.body.length)]

private theorem headerText_entries (printable : request.Printable) :
    ∀ h ∈ request.entries, HeaderText h := by
  have close : HeaderText (bytes "connection", bytes "close") :=
    ⟨by decide, by decide +kernel, by decide +kernel, by decide +kernel⟩
  have keepAlive : HeaderText (bytes "connection", bytes "keep-alive") :=
    ⟨by decide, by decide +kernel, by decide +kernel, by decide +kernel⟩
  have digits : ∀ b, isDigit b → isControl b = false :=
    forall_byte (by decide +kernel)
  have name : bytes "content-length" ≠ [] ∧ ∀ b ∈ bytes "content-length", isToken b :=
    ⟨by decide, by decide +kernel⟩
  have length : HeaderText (bytes "content-length", toDecimal request.body.length) := by
    refine ⟨name.1, name.2, ?_, ?_⟩
    · exact fun b member => digits b (isDigit_of_mem_toDecimal b member)
    · exact fun b first => isBlank_eq_false_of_isDigit
        (isDigit_of_mem_toDecimal b (List.mem_of_mem_head? first))
  intro h member
  unfold entries at member
  rw [List.cons_append, List.mem_cons, List.mem_append] at member
  rcases member with rfl | inside | last
  · cases request.close
    · exact keepAlive
    · exact close
  · exact (printable.headers h inside).toHeaderText
  · split at last
    next => cases last
    next =>
      rw [List.mem_singleton] at last
      exact last ▸ length

private theorem foldl_entries (printable : request.Printable) :
    request.entries.foldl (fun map h => setHeader h.1 h.2 map) [] = request.printedHeaders := by
  have apart : ∀ h ∈ request.headers, strcasecmpEq h.1 (bytes "connection") = false :=
    fun h member => (printable.headers h member).connection
  unfold entries printedHeaders
  rw [List.foldl_append, List.foldl_cons, setHeader, foldl_setHeader printable.sorted apart]
  by_cases empty : request.body = []
  · rw [if_pos empty, if_pos empty]
    rfl
  · rw [if_neg empty, if_neg empty]
    rfl

/-- The text up to the empty line. -/
private def head (request : OutgoingRequest) : Bytes :=
  (httpMethodToString request.method ++ bytes " ") ++ ((request.uri ++ bytes " ") ++
    ((versionText request.version ++ crlf) ++
      request.entries.flatMap fun h => h.1 ++ bytes ": " ++ h.2 ++ crlf))

private theorem dump_eq (printable : request.Printable) :
    request.dump = request.head ++ (crlf ++ request.body) := by
  have shown : request.headers.filter (fun i =>
      !(!false && strcasecmpEq i.1 (bytes "connection"))) = request.headers := by
    rw [List.filter_eq_self]
    intro h member
    simp [(printable.headers h member).connection]
  have connection : connectionLine request.close = bytes "connection" ++ bytes ": " ++
      if request.close then bytes "close" else bytes "keep-alive" := rfl
  have length : contentLengthLine request.body.length =
      bytes "content-length" ++ bytes ": " ++ toDecimal request.body.length := rfl
  unfold dump head entries headerMapLines
  rw [printable.plain, shown, connection, length]
  by_cases empty : request.body = []
  · simp [empty, List.flatMap_map]
  · simp [empty, List.flatMap_map]

private theorem consumes_head (printable : request.Printable) (other : request.method ≠ .MSEARCH)
    {text : Bytes} {relaxed : Bool} :
    Consumes text relaxed request.head startState {} 13
      { data := { request.toHttpRequest with headers := request.printedHeaders } } := by
  -- each piece begins in the state in which the one before it ends
  obtain ⟨segments, path, uri, single⟩ := printable.path
  have method := @consumes_method text relaxed _ printable.method other
  have address := @consumes_uri text relaxed request request.method _ path uri single
    printable.query printable.fragment
  have version := @consumes_version text relaxed request.version
    { data := { method := request.method, path := request.path, query := request.query,
                fragment := request.fragment } } printable.version
  have headers := @consumes_headers text relaxed request.entries
    { data := { method := request.method, path := request.path, query := request.query,
                fragment := request.fragment, version := request.version } }
    (headerText_entries printable)
  rw [foldl_entries printable] at headers
  exact method.append (address.append (version.append headers))

/-- The text of `dump` in front of the body. -/
def headText (request : OutgoingRequest) : Bytes := request.head ++ crlf

theorem dump_eq_headText (printable : request.Printable) :
    request.dump = request.headText ++ request.body := by
  rw [dump_eq printable, headText, List.append_assoc]

/-- The parser reads the head that `dump` printed, whatever stands behind it. -/
theorem executes_headText (printable : request.Printable) (other : request.method ≠ .MSEARCH)
    (rest : Bytes) (queryStart : Nat) (relaxed : Bool) :
    ∃ parser, (HttpRequestParser.init queryStart relaxed).execute (request.headText ++ rest) =
        some (parser, rest) ∧ parser.hasError = false ∧ parser.isFinished = 1 ∧
      parser.received.data = { request.toHttpRequest with headers := request.printedHeaders } := by
  have text : request.headText ++ rest = request.head ++ (crlf ++ rest) := by
    rw [headText, List.append_assoc]
  have notEmpty : request.headText ++ rest ≠ [] := by
    rw [text]
    simp [crlf]
  obtain ⟨after, state, -, readHead⟩ := consumes_head printable other
    (HttpParser.init queryStart relaxed).reset 0 (crlf ++ rest) rfl rfl text
  let stored : Received :=
    { data := { request.toHttpRequest with headers := request.printedHeaders } }
  obtain ⟨final, ended, readEnd⟩ := @parseFrom_end (request.headText ++ rest) after
    (0 + request.head.length) stored rest state
  have read : parseFrom (request.headText ++ rest) (HttpParser.init queryStart relaxed).reset {} 0
      (request.headText ++ rest) = some (final, 0 + request.head.length + 2, stored) :=
    calc
      _ = parseFrom (request.headText ++ rest) (HttpParser.init queryStart relaxed).reset {} 0
          (request.head ++ (crlf ++ rest)) :=
        congrArg (parseFrom (request.headText ++ rest) _ {} 0) text
      _ = parseFrom (request.headText ++ rest) after stored (0 + request.head.length)
          (crlf ++ rest) := readHead
      _ = some (final, 0 + request.head.length + 2, stored) := readEnd
  have behind : (request.headText ++ rest).drop (0 + request.head.length + 2) = rest := by
    rw [text, Nat.zero_add, ← List.drop_drop, List.drop_left]
    rfl
  refine ⟨⟨final, stored⟩, ?_, ?_, ?_, rfl⟩
  · rw [execute_eq queryStart relaxed notEmpty, read, Option.map_some]
    dsimp only
    rw [behind]
  · simp [HttpRequestParser.hasError, HttpParser.hasError, ended, firstFinal, errorState, stored]
  · simp [HttpRequestParser.isFinished, HttpParser.finish, HttpParser.hasError,
      HttpParser.isFinished, ended, firstFinal, errorState]

end OutgoingRequest

end Dwframe.Http
