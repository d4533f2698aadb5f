import Dwframe.Http.Session
import Dwframe.Http.Tokens

/-!
# A head in several reads

`recvRequest` executes the parser on each read by itself. The state of the machine survives from
one read to the next and the bytes do not, so a token that a read boundary cuts is reported
without its first part. `readStart` is the boundary before a position; the loop delivers, for
every report of the head, the text since the later of its mark and that boundary
(`recvRequestLoop_eq`), whatever the reads.
-/
namespace Dwframe.Http

open HttpParser (len)

variable {relaxed : Bool} {garbage : Nat} {base : Nat → Nat}

/-! ### The registers of the parser -/

/-- The parser in state `cs`, in a buffer that begins at `o`. -/
def Marks.view (relaxed : Bool) (garbage : Nat) (base : Nat → Nat) (o cs : Nat) (marks : Marks) :
    HttpParser where
  cs := cs
  mark := marks.mark - o
  fieldStart := marks.fieldStart - o
  fieldLen := len (marks.nameStart - o) (marks.nameEnd - o)
  queryStart := (marks.query.map fun q => q - base q).getD garbage
  uriRelaxed := relaxed

/-- What was marked before a buffer is cleared when the buffer is executed. -/
theorem reset_view {o later cs : Nat} {marks : Marks} (within : marks.Within later) :
    (marks.view relaxed garbage base o cs).reset =
      marks.view relaxed garbage base later cs := by
  simp only [Marks.view, HttpParser.reset, HttpParser.mk.injEq, len, true_and, and_true]
  have := within.mark
  have := within.fieldStart
  have := within.nameStart
  have := within.nameEnd
  omega

private theorem marked_view {chunk : Bytes} {o cs pos : Nat} {marks : Marks}
    (after : o ≤ pos) (here : base pos = o) (action : ParserAction) (element : Element) :
    (marks.view relaxed garbage base o cs).marked chunk (pos - o) element =
      Report.marked chunk o base ⟨action, marks, pos⟩ element := by
  have start : max o marks.mark - o = marks.mark - o := by omega
  have length : len (marks.mark - o) (pos - o) = len (max o marks.mark) pos := by
    simp only [len]
    omega
  simp only [HttpParser.marked, Report.marked, Report.clip, Marks.view, here, start, length]

theorem act_view {chunk : Bytes} {o cs pos : Nat} {marks : Marks} (after : o ≤ pos)
    (here : base pos = o) (action : ParserAction)
    (query : action = .queryString → marks.query.isSome) :
    HttpParser.act chunk (pos - o) (marks.view relaxed garbage base o cs) action =
      ((marks.after pos action).view relaxed garbage base o cs,
        Report.calls chunk o base ⟨action, marks, pos⟩) := by
  cases action with
  | requestMethod | requestUri | fragment | requestPath | httpVersion =>
    exact congrArg (Prod.mk _) (marked_view after here _ _)
  | queryString =>
    obtain ⟨q, marked⟩ := Option.isSome_iff_exists.mp (query rfl)
    have length : len (q - base q) (pos - o) = len (o + (q - base q)) pos := by
      simp only [len]
      omega
    simp [HttpParser.act, Marks.after, Report.calls, Report.queryFrom, Marks.view, marked, here,
      length]
  | writeValue =>
    have length : len (marks.mark - o) (pos - o) = len (max o marks.mark) pos := by
      simp only [len]
      omega
    have name : len (marks.nameStart - o) (marks.nameEnd - o) =
        len (max o marks.nameStart) (max o marks.nameEnd) := by
      simp only [len]
      omega
    have fieldFrom : max o marks.fieldStart - o = marks.fieldStart - o := by omega
    have valueFrom : max o marks.mark - o = marks.mark - o := by omega
    simp only [HttpParser.act, Marks.after, Report.calls, Report.clip, Marks.view, here, length,
      name, fieldFrom, valueFrom]
  | startQuery => simp [HttpParser.act, Marks.after, Report.calls, Marks.view, here]
  | mark | startField | writeField | startValue | done | xml | json => rfl

theorem perform_view {chunk : Bytes} {o cs pos : Nat} (after : o ≤ pos) (here : base pos = o) :
    ∀ {actions : List ParserAction} {marks : Marks},
    (∀ r ∈ reportsOf pos marks actions, r.action = .queryString → r.marks.query.isSome) →
    HttpParser.perform chunk (pos - o) (marks.view relaxed garbage base o cs) actions =
      ((actions.foldl (Marks.after pos) marks).view relaxed garbage base o cs,
        (reportsOf pos marks actions).flatMap (Report.calls chunk o base)) := by
  intro actions
  induction actions with
  | nil => intros; rfl
  | cons action actions ih =>
    intro marks ready
    have first : HttpParser.act chunk (pos - o) (marks.view relaxed garbage base o cs) action = _ :=
      act_view after here action (ready ⟨action, marks, pos⟩ List.mem_cons_self)
    simp only [HttpParser.perform, first, ih fun r member => ready r (.tail _ member),
      List.foldl_cons, reportsOf, List.flatMap_cons]

/-! ### One read -/

/-- A report made while `chunk`, which begins at `o`, is executed. -/
def Report.In (chunk : Bytes) (o : Nat) (r : Report) : Prop :=
  o ≤ r.pos ∧ ∃ b, chunk[r.pos - o]? = some b ∧ r.Sound b

/-- The execution made the callbacks of a first part of the reports, and either finished the head
or read the whole chunk and left the rest of the reports to `more`. -/
def Delivers (relaxed : Bool) (garbage : Nat) (base : Nat → Nat) (o : Nat) (chunk more : Bytes)
    (executed : HttpParser.Executed) (reports : List Report) : Prop :=
  ∃ mine rest, reports = mine ++ rest ∧
    executed.calls = mine.flatMap (Report.calls chunk o base) ∧ (∀ r ∈ mine, r.In chunk o) ∧
    ((rest = [] ∧ executed.parser.finish = 1 ∧ 0 < executed.nread) ∨
      ∃ cs marks, executed.parser = Marks.view relaxed garbage base o cs marks ∧
        executed.nread = chunk.length ∧ marks.Inv cs (o + chunk.length) ∧
        tokens relaxed cs marks (o + chunk.length) more = some rest)

private theorem Delivers.after {o : Nat} {chunk more : Bytes} {executed : HttpParser.Executed}
    {first reports : List Report} (made : ∀ r ∈ first, r.In chunk o)
    (delivers : Delivers relaxed garbage base o chunk more executed reports) :
    Delivers relaxed garbage base o chunk more ⟨executed.parser, executed.nread,
      first.flatMap (Report.calls chunk o base) ++ executed.calls⟩ (first ++ reports) := by
  obtain ⟨mine, rest, rfl, calls, others, ends⟩ := delivers
  refine ⟨first ++ mine, rest, (List.append_assoc _ _ _).symm, ?_, ?_, ends⟩
  · rw [calls, List.flatMap_append]
  · intro r member
    exact (List.mem_append.mp member).elim (made r) (others r)

/-- The callbacks and registers after the actions of one byte of the chunk. -/
private theorem perform_step {chunk : Bytes} {o p cs target : Nat} {b : UInt8} {marks : Marks}
    {actions : List ParserAction} (here : ∀ i < chunk.length, base (o + i) = o)
    (byte : chunk[p]? = some b) (inv : marks.Inv cs (o + p))
    (regular : Regular cs b target actions) :
    HttpParser.perform chunk p (marks.view relaxed garbage base o target) actions =
        ((actions.foldl (Marks.after (o + p)) marks).view relaxed garbage base o target,
          (reportsOf (o + p) marks actions).flatMap (Report.calls chunk o base)) ∧
      ∀ r ∈ reportsOf (o + p) marks actions, r.In chunk o := by
  have sound := reportsOf_sound inv regular
  have inside : p < chunk.length := (List.getElem?_eq_some_iff.mp byte).1
  constructor
  · -- positions in the buffer are positions in the head less `o`
    have performed : HttpParser.perform chunk (o + p - o)
        (marks.view relaxed garbage base o target) actions = _ :=
      perform_view (Nat.le_add_right o p) (here p inside) fun r member => (sound r member).2.query
    rwa [Nat.add_sub_cancel_left] at performed
  · intro r member
    obtain ⟨position, holds⟩ := sound r member
    refine ⟨by omega, b, ?_, holds⟩
    rwa [position, Nat.add_sub_cancel_left]

/-- The machine over the rest of a chunk follows the tokens of the head. -/
theorem exec_tokens {chunk more : Bytes} {o : Nat}
    (here : ∀ i < chunk.length, base (o + i) = o) : ∀ {bs : Bytes} {p cs : Nat} {marks : Marks}
    {reports : List Report}, p ≤ chunk.length → chunk.drop p = bs → marks.Inv cs (o + p) →
    tokens relaxed cs marks (o + p) (bs ++ more) = some reports →
    Delivers relaxed garbage base o chunk more
      (HttpParser.exec chunk (marks.view relaxed garbage base o cs) p bs) reports := by
  intro bs
  induction bs with
  | nil =>
    intro p cs marks reports bound remaining inv scanned
    have whole : p = chunk.length := bound.antisymm (List.drop_eq_nil_iff.mp remaining)
    subst whole
    exact ⟨[], reports, rfl, rfl, by simp, .inr ⟨cs, marks, rfl, rfl, inv, scanned⟩⟩
  | cons b bs ih =>
    intro p cs marks reports _ remaining inv scanned
    have byte : chunk[p]? = some b := by
      rw [← Nat.add_zero p, ← List.getElem?_drop, remaining]
      rfl
    simp only [List.cons_append, tokens] at scanned
    split at scanned
    next => cases scanned
    next target actions moved =>
      have regular := delta_regular moved
      have step : HttpParser.perform chunk p (marks.view relaxed garbage base o target) actions =
        _ ∧ _ := perform_step here byte inv regular
      have started : delta (marks.view relaxed garbage base o cs).uriRelaxed
        (marks.view relaxed garbage base o cs).cs b = some (target, actions) := moved
      have entered : { marks.view relaxed garbage base o cs with cs := target } =
        marks.view relaxed garbage base o target := rfl
      -- the actions of this byte; then the head is finished, or the rest of the chunk follows
      simp only [HttpParser.exec, started, entered, step.1]
      split at scanned
      next last =>
        cases scanned
        have final := (regular.final inv.running).mp last
        rw [if_pos last]
        refine ⟨_, [], (List.append_nil _).symm, rfl, step.2, .inl ⟨rfl, ?_, Nat.succ_pos p⟩⟩
        simp [HttpParser.finish, HttpParser.hasError, HttpParser.isFinished, Marks.view,
          regular.alive, final]
      next notLast =>
        rw [Option.map_eq_some_iff] at scanned
        obtain ⟨later, scannedLater, rfl⟩ := scanned
        have tail : chunk.drop (p + 1) = bs := by
          rw [← List.drop_drop, remaining, List.drop_one, List.tail_cons]
        have inside : p < chunk.length := (List.getElem?_eq_some_iff.mp byte).1
        rw [if_neg notLast]
        exact (ih inside tail (step_inv inv regular notLast) scannedLater).after step.2

/-! ### From the buffer to the head -/

/-- A pointer into the chunk, as a pointer into the head. -/
private theorem drop_head {head chunk more : Bytes} {o s : Nat}
    (split : head.drop o = chunk ++ more) (low : o ≤ s) (high : s ≤ o + chunk.length) :
    head.drop s = chunk.drop (s - o) ++ more := by
  have shift : o + (s - o) = s := by omega
  rw [← shift, ← List.drop_drop, split, List.drop_append_of_le_length (by omega), shift]

private theorem foldlM_single (r : Received) (call : Callback) :
    [call].foldlM Received.on r = r.on call := by
  simp

private theorem on_element_head {head chunk more : Bytes} {o s pos : Nat} {e : Element}
    (split : head.drop o = chunk ++ more) (low : o ≤ s) (high : s ≤ pos)
    (inside : pos < o + chunk.length)
    (space : e = .requestMethod → chunk[pos - o]? = some 32) (received : Received) :
    received.on (.element e (head.drop s) (len s pos)) =
      received.on (.element e (chunk.drop (s - o)) (len s pos)) := by
  rw [drop_head split low (by omega)]
  refine received.on_element_append ?_ ?_ more
  · simp only [len, List.length_drop]
    omega
  · intro method
    refine List.mem_of_getElem? (i := pos - s) ?_
    rw [List.getElem?_drop, ← space method]
    congr 1
    omega

/-- The callback made in the buffer has the effect of the one on the whole head. -/
theorem on_calls {head chunk more : Bytes} {o : Nat} {r : Report}
    (split : head.drop o = chunk ++ more) (here : base r.pos = o) (made : r.In chunk o)
    (received : Received) :
    (r.calls head 0 base).foldlM Received.on received =
      (r.calls chunk o base).foldlM Received.on received := by
  obtain ⟨low, b, byte, sound⟩ := made
  have inside : r.pos < o + chunk.length := by
    have := (List.getElem?_eq_some_iff.mp byte).1
    omega
  have mark := sound.within.mark
  obtain ⟨action, marks, pos⟩ := r
  simp only at here low byte inside mark
  cases action with
  | requestMethod =>
    simp only [Report.calls, Report.marked, Report.clip, foldlM_single, here, Nat.sub_zero]
    refine on_element_head split (Nat.le_max_left _ _) (Nat.max_le.mpr ⟨low, mark⟩) inside ?_ _
    intro _
    rw [byte, sound.space rfl]
  | requestUri | fragment | requestPath | httpVersion =>
    simp only [Report.calls, Report.marked, Report.clip, foldlM_single, here, Nat.sub_zero]
    exact on_element_head split (Nat.le_max_left _ _) (Nat.max_le.mpr ⟨low, mark⟩) inside
      (by simp) _
  | queryString =>
    obtain ⟨q, marked⟩ := Option.isSome_iff_exists.mp (sound.query rfl)
    simp only at marked
    simp only [Report.calls, Report.queryFrom, marked, Option.toList_some, List.map_cons,
      List.map_nil, foldlM_single, here, Nat.sub_zero]
    rcases Nat.lt_or_ge pos (o + (q - base q)) with wrapped | ordered
    · -- the stale start lies behind the position: both lengths wrap
      have negative : len (o + (q - base q)) pos < 0 := by
        simp only [len]
        omega
      simp only [Received.on, Received.onRequestQuery, Received.onText, stdString, negative,
        ite_true]
    · exact on_element_head split (Nat.le_add_right _ _) ordered inside (by simp) _
  | writeValue =>
    -- the name ends before the position, so both texts lie in the buffer
    have named := sound.named rfl
    have fieldStart := sound.within.fieldStart
    have nameEnd := sound.within.nameEnd
    simp only at named fieldStart nameEnd
    simp only [Report.calls, Report.clip, foldlM_single, here, Nat.sub_zero, named]
    rw [drop_head split (Nat.le_max_left _ _) (by omega : max o marks.fieldStart ≤ _),
      drop_head split (Nat.le_max_left _ _) (by omega : max o marks.mark ≤ _)]
    refine received.on_field_append ?_ ?_ more
    · simp only [len, List.length_drop]
      omega
    · simp only [len, List.length_drop]
      omega
  | mark | startField | writeField | startValue | startQuery | done | xml | json => rfl

theorem foldlM_flatMap_congr {f g : Report → List Callback} : ∀ {reports : List Report}
    {received : Received}, (∀ r ∈ reports, ∀ received, (f r).foldlM Received.on received =
      (g r).foldlM Received.on received) →
    (reports.flatMap f).foldlM Received.on received =
      (reports.flatMap g).foldlM Received.on received := by
  intro reports
  induction reports with
  | nil => intros; rfl
  | cons r reports ih =>
    intro received same
    simp only [List.flatMap_cons, List.foldlM_append, same r List.mem_cons_self]
    refine bind_congr fun next => ?_
    exact ih fun r member => same r (.tail _ member)

/-! ### All reads -/

/-- The start of the read that the byte at `pos` came with. -/
def readStart : List Bytes → Nat → Nat
  | [], _ => 0
  | read :: reads, pos =>
    if pos < read.length then 0 else read.length + readStart reads (pos - read.length)

/-- `base` gives the start of the reads, the first of which begins at `o`. -/
def Cuts (base : Nat → Nat) : Nat → List Bytes → Prop
  | _, [] => True
  | o, read :: reads =>
    (∀ i < read.length, base (o + i) = o) ∧ Cuts base (o + read.length) reads

theorem cuts_of_readStart {reads : List Bytes} : ∀ {o : Nat},
    (∀ i, base (o + i) = o + readStart reads i) → Cuts base o reads := by
  induction reads with
  | nil => intros; trivial
  | cons read reads ih =>
    intro o agrees
    refine ⟨?_, ih ?_⟩
    · intro i inside
      rw [agrees, readStart, if_pos inside, Nat.add_zero]
    · intro i
      rw [Nat.add_assoc, agrees, readStart, if_neg (by omega), Nat.add_sub_cancel_left,
        Nat.add_assoc]

/-- The request that the callbacks of the reports leave, unless one fails. -/
def conclude (received : Option Received) : Option HttpRequest :=
  received.bind fun r => if r.error = 0 then some r.data else none

private theorem conclude_of_error {calls : List Callback} {received : Received}
    (failed : received.error ≠ 0) : conclude (calls.foldlM Received.on received) = none := by
  cases applied : calls.foldlM Received.on received with
  | none => rfl
  | some after => simp [conclude, Received.foldlM_on_error applied failed]

private theorem execute_read {buffSize : Nat} {p : HttpRequestParser} {chunk : Bytes}
    {reads : List Bytes} (nonempty : chunk ≠ []) :
    recvRequestLoop buffSize p [] (chunk :: reads) =
      match (HttpParser.exec chunk p.parser.reset 0 chunk).calls.foldlM Received.on p.received with
      | none => .thrown
      | some received =>
        let executed := HttpParser.exec chunk p.parser.reset 0 chunk
        let data := chunk.drop executed.nread
        if received.error != 0 || executed.parser.hasError then .closed
        else if (data.length : Int) = cInt buffSize then .closed
        else if executed.parser.finish ≠ 0 then .finished ⟨executed.parser, received⟩ data reads
        else recvRequestLoop buffSize ⟨executed.parser, received⟩ data reads := by
  simp only [recvRequestLoop, nonempty, ite_false, List.nil_append, HttpRequestParser.execute,
    HttpParser.execute]
  cases (HttpParser.exec chunk p.parser.reset 0 chunk).calls.foldlM Received.on p.received with
  | none => rfl
  | some received => rfl

private theorem finish_running {parser : HttpParser} (alive : parser.cs ≠ errorState)
    (running : parser.cs < firstFinal) : parser.hasError = false ∧ parser.finish = 0 := by
  simp [HttpParser.finish, HttpParser.hasError, HttpParser.isFinished, alive, running]

theorem finish_last {parser : HttpParser} (finished : parser.finish = 1) :
    parser.hasError = false := by
  unfold HttpParser.finish at finished
  cases failed : parser.hasError with
  | true => simp [failed] at finished
  | false => rfl

/-- The loop from any point between two reads. -/
theorem recvRequestLoop_eq {head : Bytes} {buffSize : Nat} (small : buffSize < 2 ^ 31) :
    ∀ {reads : List Bytes} {o cs : Nat} {marks : Marks} {parser : HttpParser}
    {received : Received} {reports : List Report}, (∀ read ∈ reads, read ≠ []) →
    (∀ read ∈ reads, read.length ≤ buffSize) → Cuts base o reads →
    head.drop o = reads.flatten → marks.Inv cs o →
    parser.reset = marks.view relaxed garbage base o cs →
    tokens relaxed cs marks o reads.flatten = some reports →
    (recvRequestLoop buffSize ⟨parser, received⟩ [] reads).request? =
      conclude ((reports.flatMap (Report.calls head 0 base)).foldlM Received.on received) := by
  intro reads
  induction reads with
  | nil =>
    intro o cs marks parser received reports _ _ _ _ _ _ scanned
    simp [tokens] at scanned
  | cons chunk reads ih =>
    intro o cs marks parser received reports nonempty fits cuts split inv view scanned
    have fit : chunk.length ≤ buffSize := fits chunk List.mem_cons_self
    have positive : 0 < chunk.length := List.length_pos_iff.mpr (nonempty chunk List.mem_cons_self)
    rw [List.flatten_cons] at split scanned
    have delivers : Delivers relaxed garbage base o chunk reads.flatten
        (HttpParser.exec chunk parser.reset 0 chunk) reports := by
      rw [view]
      exact exec_tokens cuts.1 (Nat.zero_le _) rfl inv scanned
    rw [execute_read (nonempty chunk List.mem_cons_self)]
    -- from here on only what `Delivers` says is used of the execution
    generalize HttpParser.exec chunk parser.reset 0 chunk = executed at delivers ⊢
    obtain ⟨mine, rest, rfl, calls, made, ends⟩ := delivers
    -- the callbacks of this read, and those of the reports on the whole head, do the same
    have same : (mine.flatMap (Report.calls head 0 base)).foldlM Received.on received =
        executed.calls.foldlM Received.on received := by
      rw [calls]
      refine foldlM_flatMap_congr fun r member received => on_calls split ?_ (made r member) _
      obtain ⟨low, b, byte, -⟩ := made r member
      rw [← cuts.1 _ (List.getElem?_eq_some_iff.mp byte).1, Nat.add_sub_cancel' low]
    rw [List.flatMap_append, List.foldlM_append, same]
    cases executed.calls.foldlM Received.on received with
    | none => rfl
    | some after =>
      simp only [Option.bind_eq_bind, Option.bind_some, cInt_of_lt small, List.length_drop]
      by_cases failed : after.error = 0
      case neg =>
        rw [if_pos (by simp [failed]), conclude_of_error failed]
        rfl
      -- either `done` was reached here, or every byte was read and nothing is kept in the buffer
      rcases ends with ⟨rfl, finished, read⟩ | ⟨cs', marks', registers, read, inv', later⟩
      · rw [if_neg (by simp [failed, finish_last finished]), if_neg (by omega),
          if_pos (by rw [finished]; decide)]
        simp [HeadOutcome.request?, conclude, failed]
      · have going : executed.parser.hasError = false ∧ executed.parser.finish = 0 := by
          rw [registers]
          exact finish_running inv'.alive inv'.running
        rw [if_neg (by simp [failed, going.1]), if_neg (by omega), if_neg (by simp [going.2]),
          read, List.drop_length]
        refine ih (fun r member => nonempty r (.tail _ member))
          (fun r member => fits r (.tail _ member)) cuts.2 ?_ inv' ?_ later
        · rw [← List.drop_drop, split, List.drop_left]
        · rw [registers, reset_view inv'.within]

/-- The request that the reports of `head` give when `base` is where the reads start. -/
def assemble (head : Bytes) (base : Nat → Nat) (reports : List Report) : Option HttpRequest :=
  conclude ((reports.flatMap (Report.calls head 0 base)).foldlM Received.on {})

/-- The loop of `recvRequest` on an accepted head. -/
theorem recvRequestHead_eq {reads : List Bytes} {buffSize queryStart : Nat}
    {reports : List Report} (small : buffSize < 2 ^ 31) (nonempty : ∀ read ∈ reads, read ≠ [])
    (fits : ∀ read ∈ reads, read.length ≤ buffSize) (cuts : Cuts base 0 reads)
    (accepted : headTokens relaxed reads.flatten = some reports) :
    (recvRequestHead buffSize queryStart relaxed reads).request? =
      assemble reads.flatten base reports :=
  recvRequestLoop_eq small nonempty fits cuts rfl initial_inv rfl accepted

/-! ### Reads that cut no token -/

/-- Every text is reported in the read in which it was marked. -/
def Uncut (reads : List Bytes) (reports : List Report) : Prop :=
  ∀ r ∈ reports, ∀ s ∈ r.starts, readStart reads r.pos ≤ s

instance (reads : List Bytes) (reports : List Report) : Decidable (Uncut reads reports) :=
  inferInstanceAs (Decidable (∀ r ∈ reports, ∀ s ∈ r.starts, readStart reads r.pos ≤ s))

private theorem readStart_of_le {reads : List Bytes} : ∀ {q pos : Nat},
    readStart reads pos ≤ q → q ≤ pos → readStart reads q = readStart reads pos := by
  induction reads with
  | nil => intros; rfl
  | cons read reads ih =>
    intro q pos start before
    simp only [readStart] at start ⊢
    split at start
    next inside => rw [if_pos inside, if_pos (by omega)]
    next outside =>
      have same : readStart reads (q - read.length) = readStart reads (pos - read.length) :=
        ih (by omega) (by omega)
      rw [if_neg outside, if_neg (by omega), same]

/-- A text that is reported in the read in which it was marked is reported whole. -/
private theorem calls_uncut {head : Bytes} {reads : List Bytes} {r : Report}
    (within : r.marks.Within r.pos) (uncut : ∀ s ∈ r.starts, readStart reads r.pos ≤ s)
    (received : Received) :
    (r.calls head 0 (readStart reads)).foldlM Received.on received =
      (r.calls head 0 fun _ => 0).foldlM Received.on received := by
  obtain ⟨action, marks, pos⟩ := r
  cases action with
  | requestMethod | fragment | requestPath | httpVersion =>
    have start := uncut marks.mark List.mem_cons_self
    simp only at start
    simp only [Report.calls, Report.marked, Report.clip, Nat.max_eq_right start, Nat.zero_max]
  | queryString =>
    cases marked : marks.query with
    | none => simp only [Report.calls, marked, Option.toList_none, List.map_nil]
    | some q =>
      have start : readStart reads pos ≤ q := uncut q (by simp [Report.starts, marked])
      -- marked and reported in one read
      have same := readStart_of_le start (within.query q marked)
      have whole : readStart reads pos + (q - readStart reads pos) = q :=
        Nat.add_sub_cancel' start
      simp only [Report.calls, Report.queryFrom, marked, Option.toList_some, List.map_cons,
        List.map_nil, same, whole, Nat.zero_add, Nat.sub_zero]
  | writeValue =>
    have field : readStart reads pos ≤ marks.fieldStart := uncut _ (by simp [Report.starts])
    have name : readStart reads pos ≤ marks.nameStart := uncut _ (by simp [Report.starts])
    have value : readStart reads pos ≤ marks.mark := uncut _ (by simp [Report.starts])
    simp only [Report.calls, Report.clip, Nat.max_eq_right field, Nat.max_eq_right name,
      Nat.max_eq_right value, Nat.max_eq_right (name.trans within.nameStart), Nat.zero_max]
  | requestUri | mark | startField | writeField | startValue | startQuery | done | xml | json =>
    rfl

/-- The reads of a head give the request of the head in one read exactly when what the reads leave
of its tokens gives the same request; so whenever no token is cut. -/
theorem split_reads_agree_iff {reads : List Bytes} {buffSize queryStart queryStart' : Nat}
    {reports : List Report} (small : buffSize < 2 ^ 31) (nonempty : ∀ read ∈ reads, read ≠ [])
    (fits : ∀ read ∈ reads, read.length ≤ buffSize) (wholeFits : reads.flatten.length ≤ buffSize)
    (accepted : headTokens relaxed reads.flatten = some reports) :
    ((recvRequestHead buffSize queryStart relaxed reads).request? =
        (recvRequestHead buffSize queryStart' relaxed [reads.flatten]).request? ↔
      assemble reads.flatten (readStart reads) reports =
        assemble reads.flatten (fun _ => 0) reports) ∧
    (Uncut reads reports → (recvRequestHead buffSize queryStart relaxed reads).request? =
      (recvRequestHead buffSize queryStart' relaxed [reads.flatten]).request?) := by
  have notEmpty : reads.flatten ≠ [] := by
    intro empty
    rw [empty] at accepted
    cases accepted
  have split : (recvRequestHead buffSize queryStart relaxed reads).request? =
      assemble reads.flatten (readStart reads) reports :=
    recvRequestHead_eq small nonempty fits (cuts_of_readStart (by simp)) accepted
  have whole : (recvRequestHead buffSize queryStart' relaxed [reads.flatten]).request? =
      assemble [reads.flatten].flatten (fun _ => 0) reports := by
    refine recvRequestHead_eq small ?_ ?_ ⟨fun _ _ => rfl, trivial⟩ ?_
    · simpa using notEmpty
    · simpa using wholeFits
    · simpa using accepted
  rw [List.flatten_singleton] at whole
  rw [split, whole]
  refine ⟨Iff.rfl, fun uncut => congrArg conclude ?_⟩
  exact foldlM_flatMap_congr fun r member received =>
    calls_uncut (tokens_within initial_inv accepted r member) (uncut r member) received

/-- The boundaries lie between lines. -/
theorem split_reads_agree_between_lines :
    (recvRequestHead 4096 3 false [bytes "GET /a?x=1 HTTP/1.0\x0d\n", bytes "Host: h\x0d\n",
        bytes "\x0d\n"]).request? =
      (recvRequestHead 4096 0 false [[bytes "GET /a?x=1 HTTP/1.0\x0d\n", bytes "Host: h\x0d\n",
        bytes "\x0d\n"].flatten]).request? := by
  have accepted : (headTokens false [bytes "GET /a?x=1 HTTP/1.0\x0d\n", bytes "Host: h\x0d\n",
      bytes "\x0d\n"].flatten).isSome := by
    decide +kernel
  refine (split_reads_agree_iff ?_ ?_ ?_ ?_ (Option.some_get accepted).symm).2 ?_
  all_goals decide +kernel +revert

/-- A boundary inside the method closes the connection on a valid request, one inside the path
gives another path. -/
theorem cut_token_changes_request :
    (recvRequestHead 4096 0 false [bytes "GET / HTTP/1.1\x0d\n\x0d\n"]).request? = some {} ∧
    recvRequestHead 4096 0 false [bytes "GE", bytes "T / HTTP/1.1\x0d\n\x0d\n"] = .closed ∧
    (recvRequestHead 4096 0 false [bytes "GET /ab HTTP/1.1\x0d\n\x0d\n"]).request? =
      some { path := bytes "/ab" } ∧
    (recvRequestHead 4096 0 false [bytes "GET /a", bytes "b HTTP/1.1\x0d\n\x0d\n"]).request? =
      some { path := bytes "b" } := by
  decide +kernel

end Dwframe.Http
