import Dwframe.Http.SplitReads
import Dwframe.Lib.Chunks

/-!
# Requests one behind the other

A connection that carries complete requests, and the calls of `recvRequest` that take them from
it. `execute_head` says that the parser leaves the bytes behind a head alone, and
`recvRequest_wire` what one call does with them: the body takes what it needs, from the buffer
first, and what is then still in the buffer is lost with it.
-/
open Dwframe.Lib

namespace Dwframe.Http

variable {relaxed : Bool}

/-! ### A head with bytes behind it -/

private theorem perform_state {buffer : Bytes} {fpc : Nat} : ∀ {actions : List ParserAction}
    {parser : HttpParser}, (HttpParser.perform buffer fpc parser actions).1.cs = parser.cs ∧
      (HttpParser.perform buffer fpc parser actions).1.uriRelaxed = parser.uriRelaxed := by
  intro actions
  induction actions with
  | nil => exact fun {_} => ⟨rfl, rfl⟩
  | cons action actions ih =>
    intro parser
    simp only [HttpParser.perform, ih]
    cases action <;> exact ⟨rfl, rfl⟩

private theorem finish_eq_one {parser : HttpParser} :
    parser.finish = 1 ↔ parser.cs ≠ errorState ∧ firstFinal ≤ parser.cs := by
  unfold HttpParser.finish HttpParser.hasError HttpParser.isFinished
  by_cases failed : parser.cs = errorState
  · simp [failed]
  · by_cases final : firstFinal ≤ parser.cs <;> simp [failed, final]

/-- An execution that finishes reads as much when more bytes follow, and in any buffer. -/
private theorem exec_nread {buffer longer more : Bytes} : ∀ {bs : Bytes} {p : Nat}
    {parser other : HttpParser}, parser.cs < firstFinal → other.cs = parser.cs →
    other.uriRelaxed = parser.uriRelaxed → (HttpParser.exec buffer parser p bs).parser.finish = 1 →
    (HttpParser.exec longer other p (bs ++ more)).nread =
        (HttpParser.exec buffer parser p bs).nread ∧
      (HttpParser.exec buffer parser p bs).nread ≤ p + bs.length := by
  intro bs
  induction bs with
  | nil =>
    intro p parser other running _ _ finished
    exact absurd (finish_eq_one.mp finished).2 (by simp only [HttpParser.exec]; omega)
  | cons b bs ih =>
    intro p parser other running sameState sameFlag finished
    simp only [HttpParser.exec, List.cons_append, sameState, sameFlag] at finished ⊢
    cases moved : delta parser.uriRelaxed parser.cs b with
    | none =>
      rw [moved] at finished
      exact absurd rfl (finish_eq_one.mp finished).1
    | some edge =>
      obtain ⟨target, actions⟩ := edge
      simp only [moved] at finished ⊢
      split at finished
      next last =>
        rw [if_pos last, if_pos last, List.length_cons]
        exact ⟨rfl, by dsimp only; omega⟩
      next notLast =>
        have going : target < firstFinal := (delta_regular moved).running running notLast
        have entered : (HttpParser.perform buffer p { parser with cs := target } actions).1.cs =
          target ∧ _ := perform_state
        have enteredOther : (HttpParser.perform longer p
            { other with cs := target, uriRelaxed := parser.uriRelaxed } actions).1.cs =
          target ∧ _ := perform_state
        have later := ih (by rw [entered.1]; exact going) (enteredOther.1.trans entered.1.symm)
          (enteredOther.2.trans entered.2.symm) finished
        rw [if_neg notLast, if_neg notLast, List.length_cons]
        exact ⟨later.1, by dsimp only; omega⟩

/-- The reports of an execution that finishes. -/
private theorem tokens_of_exec {buffer : Bytes} : ∀ {bs : Bytes} {p : Nat} (pos : Nat)
    (marks : Marks) {parser : HttpParser}, parser.cs < firstFinal →
    (HttpParser.exec buffer parser p bs).parser.finish = 1 →
    ∃ reports, tokens parser.uriRelaxed parser.cs marks pos bs = some reports := by
  intro bs
  induction bs with
  | nil =>
    intro p pos marks parser running finished
    exact absurd (finish_eq_one.mp finished).2 (by simp only [HttpParser.exec]; omega)
  | cons b bs ih =>
    intro p pos marks parser running finished
    simp only [HttpParser.exec, tokens] at finished ⊢
    cases moved : delta parser.uriRelaxed parser.cs b with
    | none =>
      rw [moved] at finished
      exact absurd rfl (finish_eq_one.mp finished).1
    | some edge =>
      obtain ⟨target, actions⟩ := edge
      simp only [moved] at finished ⊢
      split at finished
      next last => exact ⟨_, if_pos last⟩
      next notLast =>
        have going : target < firstFinal := (delta_regular moved).running running notLast
        have entered : (HttpParser.perform buffer p { parser with cs := target } actions).1.cs =
          target ∧ _ := perform_state
        obtain ⟨later, scanned⟩ := ih (pos + 1) (actions.foldl (Marks.after pos) marks)
          (by rw [entered.1]; exact going) finished
        rw [entered.1, entered.2] at scanned
        exact ⟨reportsOf pos marks actions ++ later, by rw [if_neg notLast, scanned]; rfl⟩

private theorem tokens_append {more : Bytes} : ∀ {bs : Bytes} {cs pos : Nat} {marks : Marks}
    {reports : List Report}, tokens relaxed cs marks pos bs = some reports →
    tokens relaxed cs marks pos (bs ++ more) = some reports := by
  intro bs
  induction bs with
  | nil => simp [tokens]
  | cons b bs ih =>
    intro cs pos marks reports scanned
    simp only [List.cons_append, tokens] at scanned ⊢
    cases moved : delta relaxed cs b with
    | none =>
      rw [moved] at scanned
      cases scanned
    | some edge =>
      obtain ⟨target, actions⟩ := edge
      simp only [moved] at scanned ⊢
      split at scanned
      next last => rw [if_pos last, scanned]
      next notLast =>
        rw [Option.map_eq_some_iff] at scanned
        obtain ⟨later, scannedLater, rfl⟩ := scanned
        rw [if_neg notLast, ih scannedLater, Option.map_some]

/-- A whole buffer that is accepted: all reports are made, and `done` is reached. -/
private theorem Delivers.whole {chunk : Bytes} {garbage : Nat} {base : Nat → Nat}
    {executed : HttpParser.Executed} {reports : List Report}
    (delivers : Delivers relaxed garbage base 0 chunk [] executed reports) :
    executed.calls = reports.flatMap (Report.calls chunk 0 base) ∧
      (∀ r ∈ reports, r.In chunk 0) ∧ executed.parser.finish = 1 := by
  obtain ⟨mine, rest, rfl, calls, made, ends⟩ := delivers
  rcases ends with ⟨rfl, finished, -⟩ | ⟨cs, marks, -, -, -, scanned⟩
  · rw [List.append_nil]
    exact ⟨calls, made, finished⟩
  · -- nothing is left in which the head could end
    cases scanned

/-- Bytes behind a head that finishes the machine change nothing. -/
private theorem exec_head {head : Bytes} (more : Bytes) (queryStart : Nat)
    (finished : (HttpParser.exec head (HttpParser.init 0 relaxed).reset 0 head).parser.finish = 1) :
    let alone := HttpParser.exec head (HttpParser.init 0 relaxed).reset 0 head
    let followed := HttpParser.exec (head ++ more) (HttpParser.init queryStart relaxed).reset 0
      (head ++ more)
    followed.parser.finish = 1 ∧ followed.nread = alone.nread ∧ alone.nread ≤ head.length ∧
      ∀ received, followed.calls.foldlM Received.on received =
        alone.calls.foldlM Received.on received := by
  intro alone followed
  have running : (HttpParser.init 0 relaxed).reset.cs < firstFinal := by
    change startState < firstFinal
    decide
  obtain ⟨reports, scanned⟩ := tokens_of_exec 0 {} running finished
  -- the head alone, and the head with the bytes behind it, have the same reports
  have delivers : Delivers relaxed 0 (fun _ => 0) 0 head [] alone reports :=
    exec_tokens (fun _ _ => rfl) (Nat.zero_le _) rfl initial_inv (tokens_append scanned)
  have deliversMore : Delivers relaxed queryStart (fun _ => 0) 0 (head ++ more) [] followed
      reports :=
    exec_tokens (fun _ _ => rfl) (Nat.zero_le _) rfl initial_inv
      (tokens_append (tokens_append scanned))
  obtain ⟨calls, made, -⟩ := delivers.whole
  obtain ⟨callsMore, -, finishedMore⟩ := deliversMore.whole
  obtain ⟨read, within⟩ : followed.nread = alone.nread ∧ alone.nread ≤ 0 + head.length :=
    exec_nread running rfl rfl finished
  refine ⟨finishedMore, read, by omega, fun received => ?_⟩
  rw [callsMore, calls]
  exact foldlM_flatMap_congr fun r member received => on_calls rfl rfl (made r member) received

/-- The request of a head that the parser accepts, alone in the buffer and to its last byte. -/
def parseHead (relaxed : Bool) (head : Bytes) : Option HttpRequest :=
  match (HttpRequestParser.init 0 relaxed).execute head with
  | some (parser, []) =>
    if parser.hasError = false ∧ parser.isFinished = 1 then some parser.received.data else none
  | _ => none

private theorem parseHead_eq {head : Bytes} {request : HttpRequest}
    (parsed : parseHead relaxed head = some request) :
    ∃ parser, (HttpRequestParser.init 0 relaxed).execute head = some (parser, []) ∧
      parser.hasError = false ∧ parser.isFinished = 1 ∧ parser.received.data = request := by
  unfold parseHead at parsed
  split at parsed
  next parser accepted =>
    split at parsed
    next ends =>
      cases parsed
      exact ⟨parser, accepted, ends.1, ends.2, rfl⟩
    next => cases parsed
  next => cases parsed

/-- The parser takes a head from the buffer and leaves the bytes behind it. -/
theorem execute_head {head : Bytes} (more : Bytes) (queryStart : Nat) {request : HttpRequest}
    (parsed : parseHead relaxed head = some request) :
    ∃ parser, (HttpRequestParser.init queryStart relaxed).execute (head ++ more) =
        some (parser, more) ∧
      parser.hasError = false ∧ parser.isFinished = 1 ∧ parser.received.data = request := by
  obtain ⟨parser, accepted, sound, finished, rfl⟩ := parseHead_eq parsed
  -- an empty buffer leaves the parser in its first state
  have notEmpty : head ≠ [] := by
    rintro rfl
    cases accepted
    cases finished
  simp only [HttpRequestParser.execute, HttpParser.execute, HttpRequestParser.init,
    if_neg notEmpty, Option.map_eq_some_iff, Prod.mk.injEq] at accepted
  obtain ⟨received, applied, rfl, emptied⟩ := accepted
  obtain ⟨finishedMore, read, within, same⟩ :=
    exec_head more queryStart finished
  -- alone the head is read to its end, so the same bytes are read of the longer buffer
  rw [List.drop_eq_nil_iff] at emptied
  have consumed : (HttpParser.exec head (HttpParser.init 0 relaxed).reset 0 head).nread =
    head.length := by omega
  refine ⟨⟨_, received⟩, ?_, ?_, finishedMore, rfl⟩
  · have notEmptyMore : head ++ more ≠ [] := by simp [notEmpty]
    simp only [HttpRequestParser.execute, HttpParser.execute, HttpRequestParser.init,
      if_neg notEmptyMore, same, applied, read, consumed, List.drop_left, Option.map_some]
  · simp only [HttpRequestParser.hasError, Bool.or_eq_false_iff] at sound ⊢
    exact ⟨sound.1, finish_last finishedMore⟩

/-! ### One request -/

/-- A complete request on the wire, and the memory of the call that receives it. -/
structure WireRequest (lexicalCast : Bytes → Option UInt64) where
  memory : Memory
  head : Bytes
  body : Bytes
  request : HttpRequest
  parsed : parseHead memory.uriRelaxed head = some request
  framed : (request.getContentLength lexicalCast).toNat = body.length

variable {lexicalCast : Bytes → Option UInt64}

namespace WireRequest

def bytes (w : WireRequest lexicalCast) : Bytes := w.head ++ w.body

/-- What `recvRequest` owes for it. -/
def received (w : WireRequest lexicalCast) : SessionRequest :=
  { toHttpRequest := w.request, body := w.body : SessionRequest }.init

/-- The head lies inside the read in which the request begins. -/
def HeadInside (w : WireRequest lexicalCast) (read : Bytes) : Prop :=
  w.head.length ≤ read.length

/-- The read in which the request begins holds nothing behind the request, and what is missing
from it, if anything is, has a length that an `int` holds. -/
structure Separate (buffSize : Nat) (w : WireRequest lexicalCast) (read : Bytes) : Prop where
  ends : read.length ≤ w.bytes.length
  rest : read.length = w.bytes.length ∨ 0 < cInt (w.bytes.length - read.length)
  /-- `offset == (int)buff_size` is also true of a buffer whose size an `int` does not hold. -/
  room : ((read.length - w.head.length : Nat) : Int) ≠ cInt buffSize
  fits : w.body.length < 2 ^ 63

instance (w : WireRequest lexicalCast) (read : Bytes) : Decidable (w.HeadInside read) :=
  inferInstanceAs (Decidable (w.head.length ≤ read.length))

instance (buffSize : Nat) (w : WireRequest lexicalCast) (read : Bytes) :
    Decidable (w.Separate buffSize read) :=
  decidable_of_iff (read.length ≤ w.bytes.length ∧
    (read.length = w.bytes.length ∨ 0 < cInt (w.bytes.length - read.length)) ∧
    ((read.length - w.head.length : Nat) : Int) ≠ cInt buffSize ∧ w.body.length < 2 ^ 63)
    ⟨fun ⟨ends, rest, room, fits⟩ => ⟨ends, rest, room, fits⟩,
      fun ⟨ends, rest, room, fits⟩ => ⟨ends, rest, room, fits⟩⟩

end WireRequest

private theorem head_nonempty (w : WireRequest lexicalCast) : 0 < w.head.length := by
  rw [List.length_pos_iff]
  intro empty
  have parsed := w.parsed
  rw [empty] at parsed
  cases parsed

/-- With a buffer and a request whose sizes an `int` holds, all depends on where the read ends. -/
theorem WireRequest.separate_iff_ends {w : WireRequest lexicalCast} {buffSize : Nat} {read : Bytes}
    (buffer : buffSize < 2 ^ 31) (small : w.bytes.length < 2 ^ 31)
    (inBuffer : read.length ≤ buffSize) (inside : w.HeadInside read) :
    w.Separate buffSize read ↔ read.length ≤ w.bytes.length := by
  have bytes : w.bytes.length = w.head.length + w.body.length := List.length_append
  have head := head_nonempty w
  unfold WireRequest.HeadInside at inside
  constructor
  · exact WireRequest.Separate.ends
  · intro ends
    refine ⟨ends, ?_, ?_, by omega⟩
    · rw [cInt_of_lt (by omega)]
      omega
    · rw [cInt_of_lt buffer]
      omega

@[simp] theorem SessionRequest.init_body (request : SessionRequest) :
    request.init.body = request.body := by
  unfold SessionRequest.init
  dsimp only
  split <;> rfl

theorem cInt64_of_le {n : UInt64} (large : 2 ^ 63 ≤ n.toNat) : cInt64 n ≤ 0 := by
  have bound := n.toNat_lt
  unfold cInt64
  have wrapped : Int.bmod n.toNat (2 ^ 64) = n.toNat - (2 ^ 64 : Nat) := by
    rw [Int.bmod_def]
    omega
  omega

/-- `readFixSize` takes its bytes from the front of the stream. -/
theorem readFixSizeLoop_eq {reads : List Bytes} : ∀ {left : Nat}, (∀ read ∈ reads, read ≠ []) →
    left ≤ reads.flatten.length →
    readFixSizeLoop left reads = some (reads.flatten.take left, dropChunks left reads) := by
  induction reads with
  | nil =>
    intro left _ enough
    have none : left = 0 := Nat.le_zero.mp enough
    subst none
    rfl
  | cons read reads ih =>
    intro left nonempty enough
    cases left with
    | zero => rw [readFixSizeLoop, List.take_zero, dropChunks_zero nonempty]
    | succ left =>
      simp only [readFixSizeLoop, if_neg (nonempty read List.mem_cons_self), dropChunks,
        List.flatten_cons] at enough ⊢
      split
      next cut => rw [List.take_append_of_le_length (Nat.le_of_lt cut)]
      next whole =>
        have short : read.length ≤ left + 1 := Nat.le_of_not_lt whole
        have later : left + 1 - read.length ≤ reads.flatten.length := by
          rw [List.length_append] at enough
          omega
        rw [ih (fun r member => nonempty r (.tail _ member)) later, List.take_append,
          List.take_of_length_le short, Option.map_some]

/-- The loop ends with the read in which the head lies. -/
theorem recvRequestHead_of_parsed {memory : Memory} {buffSize : Nat} {head leftover : Bytes}
    {request : HttpRequest} (parsed : parseHead memory.uriRelaxed head = some request)
    (reads : List Bytes) :
    ((leftover.length : Int) = cInt buffSize →
      recvRequestHead buffSize memory.queryStart memory.uriRelaxed
        ((head ++ leftover) :: reads) = .closed) ∧
    ((leftover.length : Int) ≠ cInt buffSize → ∃ parser,
      recvRequestHead buffSize memory.queryStart memory.uriRelaxed
        ((head ++ leftover) :: reads) = .finished parser leftover reads ∧
      parser.received.data = request) := by
  obtain ⟨parser, executed, sound, finished, request⟩ :=
    execute_head leftover memory.queryStart parsed
  have notEmpty : head ++ leftover ≠ [] := by
    intro empty
    rw [empty] at executed
    cases executed
    cases finished
  simp only [recvRequestHead, recvRequestLoop, if_neg notEmpty, List.nil_append, executed, sound,
    finished]
  constructor
  · intro full
    simp [full]
  · intro room
    exact ⟨parser, by simp [room], request⟩

/-- Behind the loop: what is in the buffer and the reads to come begin with the body. -/
private theorem recvBody_wire {w : WireRequest lexicalCast} {leftover more : Bytes}
    {reads : List Bytes} (nonempty : ∀ read ∈ reads, read ≠ [])
    (stream : leftover ++ reads.flatten = w.body ++ more) (fits : w.body.length < 2 ^ 63)
    (ends : leftover.length ≤ w.body.length)
    (rest : leftover.length = w.body.length ∨ 0 < cInt (w.body.length - leftover.length)) :
    recvBody lexicalCast { toHttpRequest := w.request } leftover reads =
      .request w.received [] (dropChunks (w.body.length - leftover.length) reads) := by
  have announced : cInt64 (w.request.getContentLength lexicalCast) = w.body.length := by
    rw [cInt64_of_lt (by rw [w.framed]; exact fits), w.framed]
  have body : w.body = leftover ++ reads.flatten.take (w.body.length - leftover.length) := by
    have taken := congrArg (List.take w.body.length) stream
    rw [List.take_left, List.take_append, List.take_of_length_le ends] at taken
    exact taken.symm
  have enough : w.body.length - leftover.length ≤ reads.flatten.length := by
    have := congrArg List.length body
    rw [List.length_append, List.length_take] at this
    omega
  unfold recvBody
  simp only [announced, Int.toNat_natCast, List.take_of_length_le ends,
    List.drop_eq_nil_of_le ends]
  split
  next =>
    split
    next missing =>
      have left : ((w.body.length : Int) - leftover.length).toNat =
        w.body.length - leftover.length := by omega
      have positive := rest.resolve_left (by omega)
      rw [left, readFixSize, readFixSizeLoop_eq nonempty enough]
      simp only [if_neg (Int.not_le.mpr positive), ← body]
      rfl
    next =>
      have none : w.body.length - leftover.length = 0 := by omega
      rw [none, List.take_zero, List.append_nil] at body
      rw [none, dropChunks_zero nonempty, ← body]
      rfl
  next =>
    have none : w.body.length = 0 := by omega
    have empty : leftover = [] := List.eq_nil_of_length_eq_zero (by omega)
    rw [none, empty, Nat.zero_sub, dropChunks_zero nonempty, WireRequest.received,
      List.eq_nil_of_length_eq_zero none]

/-- A body that comes back whole, with nothing dropped, met the conditions. -/
private theorem of_recvBody_wire {w : WireRequest lexicalCast} {leftover : Bytes}
    {reads later : List Bytes} (returned : recvBody lexicalCast { toHttpRequest := w.request }
      leftover reads = .request w.received [] later) :
    w.body.length < 2 ^ 63 ∧ leftover.length ≤ w.body.length ∧
      (leftover.length = w.body.length ∨ 0 < cInt (w.body.length - leftover.length)) := by
  have receivedBody : w.received.body = w.body := SessionRequest.init_body _
  unfold recvBody at returned
  by_cases fits : w.body.length < 2 ^ 63
  case neg =>
    -- the length is negative as an `int64_t`, and no body is taken
    have negative : cInt64 (w.request.getContentLength lexicalCast) ≤ 0 :=
      cInt64_of_le (by rw [w.framed]; omega)
    simp only [if_neg (Int.not_lt.mpr negative), RecvOutcome.request.injEq] at returned
    have none : w.body = [] := by
      rw [← receivedBody, ← returned.1, SessionRequest.init_body]
    simp [none] at fits
  have announced : cInt64 (w.request.getContentLength lexicalCast) = w.body.length := by
    rw [cInt64_of_lt (by rw [w.framed]; exact fits), w.framed]
  simp only [announced, Int.toNat_natCast] at returned
  refine ⟨fits, ?_⟩
  split at returned
  next =>
    split at returned
    next missing =>
      have left : ((w.body.length : Int) - leftover.length).toNat =
        w.body.length - leftover.length := by omega
      rw [left, readFixSize] at returned
      cases read : readFixSizeLoop (w.body.length - leftover.length) reads with
      | none => simp [read] at returned
      | some result =>
        simp only [read] at returned
        split at returned
        next => cases returned
        next positive => exact ⟨by omega, .inr (Int.not_le.mp positive)⟩
    next =>
      have dropped : w.body.length ≥ leftover.length := by
        simp only [RecvOutcome.request.injEq] at returned
        exact List.drop_eq_nil_iff.mp returned.2.1
      exact ⟨dropped, .inl (by omega)⟩
  next =>
    simp only [RecvOutcome.request.injEq] at returned
    have empty : leftover.length = 0 := by rw [returned.2.1, List.length_nil]
    exact ⟨by omega, .inl (by omega)⟩

/-- A read that begins with the head, in terms of what it holds behind the head. -/
private theorem separate_append {w : WireRequest lexicalCast} {buffSize : Nat}
    {leftover : Bytes} :
    w.Separate buffSize (w.head ++ leftover) ↔
      leftover.length ≤ w.body.length ∧
        (leftover.length = w.body.length ∨ 0 < cInt (w.body.length - leftover.length)) ∧
        (leftover.length : Int) ≠ cInt buffSize ∧ w.body.length < 2 ^ 63 := by
  have bytes : w.bytes.length = w.head.length + w.body.length := List.length_append
  have read : (w.head ++ leftover).length = w.head.length + leftover.length := List.length_append
  have missing : w.bytes.length - (w.head ++ leftover).length =
      w.body.length - leftover.length := by
    omega
  have behind : (w.head ++ leftover).length - w.head.length = leftover.length := by omega
  constructor
  · rintro ⟨ends, rest, room, fits⟩
    rw [missing] at rest
    rw [behind] at room
    exact ⟨by omega, rest.imp_left fun whole => by omega, room, fits⟩
  · rintro ⟨ends, rest, room, fits⟩
    rw [← missing] at rest
    rw [← behind] at room
    exact ⟨by omega, rest.imp_left fun whole => by omega, room, fits⟩

/-- One call returns the request and drops nothing exactly when the read of the head is separate
from what follows; the next call then begins behind the request. -/
theorem recvRequest_wire {w : WireRequest lexicalCast} (buffSize : Nat) {read more : Bytes}
    {reads : List Bytes} (nonempty : ∀ r ∈ reads, r ≠ [])
    (stream : read ++ reads.flatten = w.bytes ++ more) (inside : w.HeadInside read) :
    (w.Separate buffSize read →
      recvRequest lexicalCast buffSize w.memory (read :: reads) =
        .request w.received [] (dropChunks w.bytes.length (read :: reads))) ∧
    (∀ later, recvRequest lexicalCast buffSize w.memory (read :: reads) =
      .request w.received [] later → w.Separate buffSize read) := by
  rw [WireRequest.bytes, List.append_assoc] at stream
  obtain ⟨leftover, rfl⟩ : w.head <+: read := by
    apply List.prefix_of_prefix_length_le _ (List.prefix_append read reads.flatten) inside
    rw [stream]
    exact List.prefix_append w.head _
  rw [List.append_assoc] at stream
  have behind : leftover ++ reads.flatten = w.body ++ more := List.append_cancel_left stream
  constructor
  · intro separate
    obtain ⟨ends, rest, room, fits⟩ := separate_append.mp separate
    obtain ⟨parser, finished, request⟩ := (recvRequestHead_of_parsed w.parsed reads).2 room
    -- the reads to come lose the part of the body that the buffer did not hold
    have next : dropChunks w.bytes.length ((w.head ++ leftover) :: reads) =
        dropChunks (w.body.length - leftover.length) reads := by
      have bound := separate.ends
      rw [dropChunks, if_neg (Nat.not_lt.mpr bound), WireRequest.bytes, List.length_append,
        List.length_append, Nat.add_sub_add_left]
    simp only [recvRequest, finished, request]
    rw [recvBody_wire nonempty behind fits ends rest, next]
  · intro later returned
    by_cases room : (leftover.length : Int) = cInt buffSize
    · simp only [recvRequest, (recvRequestHead_of_parsed w.parsed reads).1 room] at returned
      cases returned
    · obtain ⟨parser, finished, request⟩ := (recvRequestHead_of_parsed w.parsed reads).2 room
      simp only [recvRequest, finished, request] at returned
      obtain ⟨fits, ends, rest⟩ := of_recvBody_wire returned
      exact separate_append.mpr ⟨ends, rest, room, fits⟩

/-! ### The calls of a session -/

/-- Successive calls return the requests of the stream in order and drop nothing exactly when every
request is separate from the next one. -/
theorem requests_in_order_iff {requests : List (WireRequest lexicalCast)} {buffSize : Nat}
    {reads : List Bytes} (nonempty : ∀ read ∈ reads, read ≠ [])
    (stream : reads.flatten = requests.flatMap WireRequest.bytes)
    (inside : AtChunks WireRequest.bytes WireRequest.HeadInside requests reads) :
    recvRequests lexicalCast buffSize (requests.map WireRequest.memory) reads =
        requests.map (fun w => (w.received, [])) ↔
      AtChunks WireRequest.bytes (WireRequest.Separate buffSize) requests reads := by
  induction requests generalizing reads with
  | nil => simp [recvRequests, AtChunks]
  | cons w requests ih =>
    cases reads with
    | nil => exact inside.elim
    | cons read reads =>
      obtain ⟨first, others⟩ := inside
      rw [List.flatMap_cons] at stream
      -- behind the first request the rest of the stream is left, in the rest of the reads
      have rest : (dropChunks w.bytes.length (read :: reads)).flatten =
          requests.flatMap WireRequest.bytes := by
        rw [flatten_dropChunks, stream, List.drop_left]
      obtain ⟨serves, separates⟩ := recvRequest_wire buffSize
        (fun r member => nonempty r (.tail _ member)) stream first
      have later := ih (ne_nil_of_mem_dropChunks nonempty) rest others
      simp only [List.map_cons, recvRequests]
      constructor
      · intro served
        split at served
        next request dropped remaining returned =>
          rw [List.cons.injEq, Prod.mk.injEq] at served
          obtain ⟨⟨rfl, rfl⟩, tail⟩ := served
          have separate := separates remaining returned
          -- so the call left the reads behind the request
          rw [serves separate, RecvOutcome.request.injEq] at returned
          rw [← returned.2.2] at tail
          exact ⟨separate, later.mp tail⟩
        next => cases served
        next => cases served
      · rintro ⟨separate, tail⟩
        simp only [serves separate, later.mpr tail]

/-- The rest of a body arrives together with the next request. -/
theorem requests_in_order_iff_split_body :
    recvRequests (fun text => if text = bytes "3" then some 3 else none) 4096
      [⟨0, false⟩, ⟨9, true⟩]
      [bytes "POST /a HTTP/1.1\x0d\ncontent-length: 3\x0d\n\x0d\nx",
        bytes "yzGET /b HTTP/1.0\x0d\nConnection: Keep-Alive\x0d\n\x0d\n"] =
      [({ method := .POST, path := bytes "/a", headers := [(bytes "content-length", bytes "3")],
          body := bytes "xyz" }, []),
        ({ version := 0x10, path := bytes "/b",
           headers := [(bytes "Connection", bytes "Keep-Alive")], close := false }, [])] := by
  let lexicalCast : Bytes → Option UInt64 := fun text => if text = bytes "3" then some 3 else none
  let post : WireRequest lexicalCast :=
    { memory := ⟨0, false⟩
      head := bytes "POST /a HTTP/1.1\x0d\ncontent-length: 3\x0d\n\x0d\n"
      body := bytes "xyz"
      request := { method := .POST, path := bytes "/a",
                   headers := [(bytes "content-length", bytes "3")] }
      parsed := by decide +kernel
      framed := by decide +kernel }
  let get : WireRequest lexicalCast :=
    { memory := ⟨9, true⟩
      head := bytes "GET /b HTTP/1.0\x0d\nConnection: Keep-Alive\x0d\n\x0d\n"
      body := []
      request := { version := 0x10, path := bytes "/b",
                   headers := [(bytes "Connection", bytes "Keep-Alive")] }
      parsed := by decide +kernel
      framed := by decide +kernel }
  refine (@requests_in_order_iff lexicalCast [post, get] 4096 _ ?_ ?_ ?_).mpr ?_
  all_goals decide +kernel

/-- Of two requests in one read the second is dropped with the buffer of the first, and the call
that should return it finds nothing to read. -/
theorem pipelined_request_dropped :
    recvRequests (fun _ => none) 4096 [⟨0, false⟩, ⟨0, false⟩]
        [bytes "GET /a HTTP/1.1\x0d\n\x0d\nGET /b HTTP/1.1\x0d\n\x0d\n"] =
      [({ path := bytes "/a" }, bytes "GET /b HTTP/1.1\x0d\n\x0d\n")] ∧
    ¬ ∀ (requests : List (WireRequest fun _ => none)) (reads : List Bytes),
      (∀ read ∈ reads, read ≠ []) → reads.flatten = requests.flatMap WireRequest.bytes →
      AtChunks WireRequest.bytes WireRequest.HeadInside requests reads →
      recvRequests (fun _ => none) 4096 (requests.map WireRequest.memory) reads =
        requests.map fun w => (w.received, []) := by
  constructor
  · decide +kernel
  · intro claimed
    let first : WireRequest fun _ => none :=
      { memory := ⟨0, false⟩, head := bytes "GET /a HTTP/1.1\x0d\n\x0d\n", body := []
        request := { path := bytes "/a" }
        parsed := by decide +kernel
        framed := by decide +kernel }
    let second : WireRequest fun _ => none :=
      { memory := ⟨0, false⟩, head := bytes "GET /b HTTP/1.1\x0d\n\x0d\n", body := []
        request := { path := bytes "/b" }
        parsed := by decide +kernel
        framed := by decide +kernel }
    have served := claimed [first, second] [first.bytes ++ second.bytes] (by decide +kernel)
      (by decide +kernel) (by decide +kernel)
    revert served
    decide +kernel

end Dwframe.Http
