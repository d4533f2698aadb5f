import Dwframe.Http.Pipeline
import Dwframe.Lib.Lines

/-!
# The announced length of a body

What a peer announces with `content-length`, and what one call of `recvRequest` makes of it. The
text goes through `boost::lexical_cast<uint64_t>`, which takes a sign and wraps, and gives 0 where
the cast throws; the number is then used as an `int64_t`. `GetHttpRequestMaxBodySize` is not read
on this way.
-/
open Dwframe.Lib

namespace Dwframe.Http

/-! ### What the text denotes -/

/-- The length that a header value announces; without the header it is 0. -/
def announced (value : Option Bytes) : Option Nat :=
  value.elim (some 0) fun v => ofDecimal (trim v)

/-- A number that does not fit a `uint64_t` is refused. -/
def inUint64 (n : Nat) : Option UInt64 := if n < 2 ^ 64 then some (UInt64.ofNat n) else none

/-- `boost::lexical_cast<uint64_t>`: digits behind an optional sign; a negative number wraps. -/
def castUint64 (text : Bytes) : Option UInt64 :=
  match text with
  | 43 :: digits => (ofDecimal digits).bind inUint64
  | 45 :: digits => ((ofDecimal digits).bind inUint64).map (0 - ·)
  | digits => (ofDecimal digits).bind inUint64

theorem announced_of_ofDecimal {v : Bytes} {n : Nat} (denotes : ofDecimal v = some n) :
    announced (some v) = some n := ofDecimal_trim denotes

theorem castUint64_of_ofDecimal {v : Bytes} {n : Nat} (denotes : ofDecimal v = some n) :
    castUint64 v = inUint64 n := by
  obtain ⟨notEmpty, digits⟩ := ofDecimal_eq_some denotes
  unfold castUint64
  split
  next rest => exact absurd (digits 43 List.mem_cons_self) (by decide)
  next rest => exact absurd (digits 45 List.mem_cons_self) (by decide)
  next => rw [denotes, Option.bind_some]

/-- A value behind a sign announces nothing. -/
private theorem announced_of_sign {sign : UInt8} {digits : Bytes} {n : Nat}
    (denotes : ofDecimal digits = some n) (solid : isBlank sign = false)
    (noDigit : isDigit sign = false) : announced (some (sign :: digits)) = none := by
  have solidText : ∀ b ∈ sign :: digits, isBlank b = false := by
    intro b member
    rcases List.mem_cons.mp member with rfl | later
    · exact solid
    · exact isBlank_eq_false_of_isDigit ((ofDecimal_eq_some denotes).2 b later)
  rw [announced, Option.elim_some, trim_eq_self solidText, ofDecimal, if_neg]
  simp [noDigit]

/-- Where the cast succeeds and a length is announced, the value is made of digits. -/
theorem ofDecimal_of_castUint64 {v : Bytes} {u : UInt64} {n : Nat}
    (casts : castUint64 v = some u) (announces : announced (some v) = some n) :
    ofDecimal v = some n ∧ u.toNat = n := by
  have plain : ∀ {m}, ofDecimal v = some m → ofDecimal v = some n ∧ m = n := by
    intro m denotes
    rw [announced_of_ofDecimal denotes, Option.some.injEq] at announces
    exact ⟨announces ▸ denotes, announces⟩
  -- behind a sign nothing would be announced
  have signed : ∀ {sign digits m}, v = sign :: digits → ofDecimal digits = some m →
      isBlank sign = false → isDigit sign = false → False := by
    intro sign digits m same denotes solid noDigit
    rw [same, announced_of_sign denotes solid noDigit] at announces
    cases announces
  unfold castUint64 at casts
  split at casts
  next digits =>
    obtain ⟨m, denotes, -⟩ := Option.bind_eq_some_iff.mp casts
    exact (signed rfl denotes (by decide) (by decide)).elim
  next digits =>
    obtain ⟨w, inside, -⟩ := Option.map_eq_some_iff.mp casts
    obtain ⟨m, denotes, -⟩ := Option.bind_eq_some_iff.mp inside
    exact (signed rfl denotes (by decide) (by decide)).elim
  next =>
    obtain ⟨m, denotes, fits⟩ := Option.bind_eq_some_iff.mp casts
    obtain ⟨same, rfl⟩ := plain denotes
    unfold inUint64 at fits
    split at fits
    next small =>
      cases fits
      exact ⟨same, by rw [UInt64.toNat_ofNat', Nat.mod_eq_of_lt small]⟩
    next => cases fits

/-! ### What the call does with it -/

/-- The bytes that arrive before a read gives nothing. -/
def arriving (reads : List Bytes) : Bytes := (reads.takeWhile (· ≠ [])).flatten

/-- `readFixSize` takes its bytes from what arrives, or fails. -/
theorem readFixSizeLoop_arriving {reads : List Bytes} : ∀ {left : Nat},
    (left ≤ (arriving reads).length → ∃ later,
      readFixSizeLoop left reads = some ((arriving reads).take left, later)) ∧
    ((arriving reads).length < left → readFixSizeLoop left reads = none) := by
  induction reads with
  | nil =>
    intro left
    cases left with
    | zero => exact ⟨fun _ => ⟨[], rfl⟩, fun short => absurd short (Nat.not_lt_zero _)⟩
    | succ left =>
      refine ⟨fun enough => absurd enough ?_, fun _ => rfl⟩
      simp [arriving]
  | cons read reads ih =>
    intro left
    cases left with
    | zero =>
      refine ⟨fun _ => ⟨read :: reads, ?_⟩, fun short => absurd short (Nat.not_lt_zero _)⟩
      rw [readFixSizeLoop, List.take_zero]
    | succ left =>
      by_cases closed : read = []
      · subst closed
        refine ⟨fun enough => absurd enough ?_, fun _ => by simp [readFixSizeLoop]⟩
        simp [arriving]
      · have first : arriving (read :: reads) = read ++ arriving reads := by
          simp [arriving, closed]
        obtain ⟨takes, fails⟩ := @ih (left + 1 - read.length)
        rw [first, List.length_append, readFixSizeLoop, if_neg closed]
        split
        next cut =>
          refine ⟨fun _ => ⟨read.drop (left + 1) :: reads, ?_⟩, fun short => by omega⟩
          rw [List.take_append_of_le_length (Nat.le_of_lt cut)]
        next whole =>
          have within : read.length ≤ left + 1 := Nat.le_of_not_lt whole
          constructor
          · intro enough
            obtain ⟨later, stored⟩ := takes (by omega)
            refine ⟨later, ?_⟩
            rw [stored, Option.map_some, List.take_append, List.take_of_length_le within]
          · intro short
            rw [fails (by omega), Option.map_none]

section Body

variable {lexicalCast : Bytes → Option UInt64} {request : SessionRequest} {data : Bytes}
  {reads : List Bytes}

/-- The body cannot be completed: bytes are missing from the buffer that do not arrive, or whose
number is no positive `int`. -/
def CutOff (length : Nat) (data following : Bytes) : Prop :=
  data.length < length ∧ (following.length < length ∨ cInt (length - data.length) ≤ 0)

theorem recvBody_none (none : cInt64 (request.getContentLength lexicalCast) ≤ 0) :
    recvBody lexicalCast request data reads = .request request.init data reads := by
  unfold recvBody
  simp only [if_neg (Int.not_lt.mpr none)]

theorem recvBody_cutOff {u : UInt64} (length : request.getContentLength lexicalCast = u)
    (small : u.toNat < 2 ^ 63) (cut : CutOff u.toNat data (data ++ arriving reads)) :
    recvBody lexicalCast request data reads = .closed := by
  obtain ⟨more, missing⟩ := cut
  have left : ((u.toNat : Int) - data.length).toNat = u.toNat - data.length := by omega
  unfold recvBody
  simp only [length, cInt64_of_lt small, left, readFixSize]
  rw [if_pos (by omega), if_pos (by omega)]
  rcases Nat.lt_or_ge (arriving reads).length (u.toNat - data.length) with short | enough
  · simp [readFixSizeLoop_arriving.2 short]
  · -- all bytes are stored, and the number of them is returned as an `int`
    obtain ⟨later, stored⟩ := readFixSizeLoop_arriving.1 enough
    rw [List.length_append] at missing
    simp only [stored]
    rw [if_pos (missing.resolve_left (by omega))]

theorem recvBody_whole {u : UInt64} (length : request.getContentLength lexicalCast = u)
    (positive : 0 < u.toNat) (small : u.toNat < 2 ^ 63)
    (whole : ¬ CutOff u.toNat data (data ++ arriving reads)) :
    u.toNat ≤ (data ++ arriving reads).length ∧ ∃ dropped later,
      recvBody lexicalCast request data reads =
        .request { request with body := (data ++ arriving reads).take u.toNat }.init dropped
          later := by
  simp only [CutOff, not_and, not_or, Nat.not_lt, Int.not_le] at whole
  unfold recvBody
  simp only [length, cInt64_of_lt small, Int.toNat_natCast, readFixSize]
  rw [if_pos (by omega)]
  rcases Nat.lt_or_ge data.length u.toNat with more | inside
  · obtain ⟨enough, fits⟩ := whole more
    have left : ((u.toNat : Int) - data.length).toNat = u.toNat - data.length := by omega
    obtain ⟨later, stored⟩ := (@readFixSizeLoop_arriving reads (u.toNat - data.length)).1
      (by rw [List.length_append] at enough; omega)
    refine ⟨enough, [], later, ?_⟩
    rw [if_pos (by omega), left, stored, List.take_append]
    simp only [if_neg (Int.not_le.mpr fits)]
  · refine ⟨by rw [List.length_append]; omega, data.drop u.toNat, reads, ?_⟩
    rw [if_neg (by omega), List.take_append_of_le_length inside]

end Body

/-- `recvBody`, where `body.resize(length)` throws unless `length` is `storable`. -/
def recvBodyStoring (storable : Nat → Bool) (lexicalCast : Bytes → Option UInt64)
    (request : SessionRequest) (data : Bytes) (reads : List Bytes) : RecvOutcome :=
  let length := cInt64 (request.getContentLength lexicalCast)
  if 0 < length ∧ storable length.toNat = false then .thrown
  else recvBody lexicalCast request data reads

/-- `recvRequest` with it. -/
def recvRequestStoring (storable : Nat → Bool) (lexicalCast : Bytes → Option UInt64)
    (buffSize : Nat) (memory : Memory) (reads : List Bytes) : RecvOutcome :=
  match recvRequestHead buffSize memory.queryStart memory.uriRelaxed reads with
  | .closed => .closed
  | .thrown => .thrown
  | .finished parser data reads =>
    recvBodyStoring storable lexicalCast { toHttpRequest := parser.received.data } data reads

theorem recvRequestStoring_all {lexicalCast : Bytes → Option UInt64} {buffSize : Nat}
    {memory : Memory} {reads : List Bytes} :
    recvRequestStoring (fun _ => true) lexicalCast buffSize memory reads =
      recvRequest lexicalCast buffSize memory reads := by
  unfold recvRequestStoring recvRequest recvBodyStoring
  cases recvRequestHead buffSize memory.queryStart memory.uriRelaxed reads <;> simp

/-- A length that may be received: within the limit, and its bytes follow. -/
def Acceptable (limit : UInt64) (following : Bytes) (n : Nat) : Prop :=
  n ≤ limit.toNat ∧ n < 2 ^ 63 ∧ n ≤ following.length

/-- The outcome keeps to the announced length: a request that is returned carries that many of the
bytes that follow its head, and where they cannot be received the connection is closed. -/
structure KeepsTo (length : Option Nat) (limit : UInt64) (following : Bytes)
    (outcome : RecvOutcome) : Prop where
  returned : ∀ request dropped reads, outcome = .request request dropped reads →
    ∃ n, length = some n ∧ Acceptable limit following n ∧ request.body = following.take n
  refused : (∀ n, length = some n → ¬ Acceptable limit following n) → outcome = .closed

/-- When an outcome keeps to the announced length. `value` is the header, and `data` is what the
buffer holds of the bytes that follow the head. -/
inductive LengthKept (storable : Nat → Bool) (buffSize : Nat) (limit : UInt64)
    (value : Option Bytes) (data following : Bytes) : Prop where
  /-- The loop takes the buffer for a full one and closes. -/
  | full (full : (data.length : Int) = cInt buffSize)
  /-- No body is announced. -/
  | empty (length : announced value = some 0)
  /-- The length is written with digits alone and within the limit. -/
  | digits (n : Nat) (length : value.bind ofDecimal = some n) (limited : n ≤ limit.toNat)
      (small : n < 2 ^ 63) (stored : storable n ∨ n ≤ following.length)
  /-- Whatever the cast makes of the value, the bytes for it do not arrive. -/
  | cutOff (u : UInt64) (length : value.bind castUint64 = some u) (small : u.toNat < 2 ^ 63)
      (stored : storable u.toNat) (cut : CutOff u.toNat data following)

section Outcomes

variable {length : Option Nat} {limit : UInt64} {following : Bytes}

theorem keepsTo_closed : KeepsTo length limit following .closed :=
  ⟨fun _ _ _ returned => (by cases returned), fun _ => rfl⟩

theorem keepsTo_thrown_iff : KeepsTo length limit following .thrown ↔
    ∃ n, length = some n ∧ Acceptable limit following n := by
  constructor
  · intro keeps
    by_contra none
    have closed := keeps.refused fun n announces fits => none ⟨n, announces, fits⟩
    cases closed
  · rintro ⟨n, announces, fits⟩
    refine ⟨fun _ _ _ returned => (by cases returned), fun refused => ?_⟩
    exact absurd fits (refused n announces)

theorem keepsTo_request_iff {request : SessionRequest} {dropped : Bytes} {reads : List Bytes} :
    KeepsTo length limit following (.request request dropped reads) ↔
      ∃ n, length = some n ∧ Acceptable limit following n ∧ request.body = following.take n := by
  constructor
  · intro keeps
    exact keeps.returned request dropped reads rfl
  · rintro ⟨n, announces, fits, body⟩
    constructor
    · intro other _ _ same
      cases same
      exact ⟨n, announces, fits, body⟩
    · intro refused
      exact absurd fits (refused n announces)

end Outcomes

section Values

variable {value : Option Bytes}

private theorem castUint64_of_digits {n : Nat} (digits : value.bind ofDecimal = some n)
    (small : n < 2 ^ 63) :
    ∃ u, value.bind castUint64 = some u ∧ u.toNat = n ∧ announced value = some n := by
  obtain ⟨v, rfl, denotes⟩ := Option.bind_eq_some_iff.mp digits
  have fits : n < 2 ^ 64 := by omega
  refine ⟨UInt64.ofNat n, ?_, ?_, announced_of_ofDecimal denotes⟩
  · rw [Option.bind_some, castUint64_of_ofDecimal denotes, inUint64, if_pos fits]
  · rw [UInt64.toNat_ofNat', Nat.mod_eq_of_lt fits]

private theorem digits_of_castUint64 {u : UInt64} {n : Nat}
    (casts : value.bind castUint64 = some u) (announces : announced value = some n) :
    value.bind ofDecimal = some n ∧ u.toNat = n := by
  obtain ⟨v, rfl, cast⟩ := Option.bind_eq_some_iff.mp casts
  exact ofDecimal_of_castUint64 cast announces

theorem getContentLength_eq {lexicalCast : Bytes → Option UInt64}
    (casts : ∀ text, lexicalCast text = castUint64 text) (request : HttpRequest) :
    request.getContentLength lexicalCast =
      ((findHeader request.headers (bytes "content-length")).bind castUint64).getD 0 := by
  unfold HttpRequest.getContentLength HttpRequest.getHeaderAs
  split
  next absent => rw [absent, Option.bind_none, Option.getD_none]
  next v present => rw [present, Option.bind_some, casts]

end Values

section Kept

variable {storable : Nat → Bool} {buffSize : Nat} {limit : UInt64} {value : Option Bytes}
  {data following : Bytes}

/-- Without a body in the `int64_t` sense. -/
private theorem lengthKept_iff_empty (room : (data.length : Int) ≠ cInt buffSize)
    (none : ∀ u, value.bind castUint64 = some u → 0 < u.toNat → 2 ^ 63 ≤ u.toNat) :
    LengthKept storable buffSize limit value data following ↔ announced value = some 0 := by
  constructor
  · intro kept
    cases kept with
    | full full => exact absurd full room
    | empty length => exact length
    | digits n length limited small stored =>
      obtain ⟨u, cast, same, announces⟩ := castUint64_of_digits length small
      have zero : n = 0 := by
        have large := none u cast
        omega
      rw [announces, zero]
    | cutOff u length small stored cut =>
      have large := none u length (Nat.zero_lt_of_lt cut.1)
      omega
  · exact .empty

/-- With a body: the length is announced as it is taken, or the body is cut off. -/
private theorem lengthKept_iff_body {u : UInt64} (room : (data.length : Int) ≠ cInt buffSize)
    (cast : value.bind castUint64 = some u) (positive : 0 < u.toNat) (small : u.toNat < 2 ^ 63) :
    LengthKept storable buffSize limit value data following ↔
      (storable u.toNat ∧ CutOff u.toNat data following) ∨
      (announced value = some u.toNat ∧ u.toNat ≤ limit.toNat ∧
        (storable u.toNat ∨ u.toNat ≤ following.length)) := by
  constructor
  · intro kept
    cases kept with
    | full full => exact absurd full room
    | empty length =>
      have zero := (digits_of_castUint64 cast length).2
      omega
    | digits n length limited below stored =>
      obtain ⟨w, casts, rfl, announces⟩ := castUint64_of_digits length below
      rw [cast, Option.some.injEq] at casts
      subst casts
      exact .inr ⟨announces, limited, stored⟩
    | cutOff w length below stored cut =>
      rw [cast, Option.some.injEq] at length
      subst length
      exact .inl ⟨stored, cut⟩
  · rintro (⟨stored, cut⟩ | ⟨announces, limited, stored⟩)
    · exact .cutOff u cast small stored cut
    · exact .digits _ (digits_of_castUint64 cast announces).1 limited small stored

end Kept

section Outcome

variable {storable : Nat → Bool} {lexicalCast : Bytes → Option UInt64} {buffSize : Nat}
  {limit : UInt64} {value : Option Bytes} {session : SessionRequest} {data : Bytes}
  {reads : List Bytes}

/-- No number, 0, or one that is negative as an `int64_t`: the request has no body. -/
private theorem keepsTo_iff_empty
    (length : session.getContentLength lexicalCast = (value.bind castUint64).getD 0)
    (none : ∀ u, value.bind castUint64 = some u → 0 < u.toNat → 2 ^ 63 ≤ u.toNat)
    (noBody : session.body = []) :
    KeepsTo (announced value) limit (data ++ arriving reads)
        (recvBodyStoring storable lexicalCast session data reads) ↔ announced value = some 0 := by
  have nothing : cInt64 (session.getContentLength lexicalCast) ≤ 0 := by
    rw [length]
    have zero : cInt64 0 ≤ 0 := by decide
    cases cast : value.bind castUint64 with
    | none => exact zero
    | some u =>
      rw [Option.getD_some]
      rcases Nat.eq_zero_or_pos u.toNat with nought | positive
      · rw [cInt64_of_lt (by omega), nought]
        omega
      · exact cInt64_of_le (none u cast positive)
  unfold recvBodyStoring
  dsimp only
  rw [if_neg (fun huge => by omega), recvBody_none nothing, keepsTo_request_iff,
    SessionRequest.init_body, noBody]
  constructor
  · rintro ⟨n, announces, ⟨-, -, enough⟩, empty⟩
    -- the empty body is as long as what is announced
    have size := congrArg List.length empty
    rw [List.length_take, List.length_nil] at size
    have zero : n = 0 := by omega
    rw [announces, zero]
  · intro announces
    exact ⟨0, announces, ⟨Nat.zero_le _, by omega, Nat.zero_le _⟩, List.take_zero.symm⟩

/-- A body of `u` bytes is asked for. -/
private theorem keepsTo_iff_body {u : UInt64}
    (length : session.getContentLength lexicalCast = u) (positive : 0 < u.toNat)
    (small : u.toNat < 2 ^ 63) (cast : value.bind castUint64 = some u) :
    KeepsTo (announced value) limit (data ++ arriving reads)
        (recvBodyStoring storable lexicalCast session data reads) ↔
      (storable u.toNat ∧ CutOff u.toNat data (data ++ arriving reads)) ∨
      (announced value = some u.toNat ∧ u.toNat ≤ limit.toNat ∧
        (storable u.toNat ∨ u.toNat ≤ (data ++ arriving reads).length)) := by
  have taken : cInt64 u = u.toNat := cInt64_of_lt small
  have present : (0 : Int) < u.toNat := by omega
  unfold recvBodyStoring
  simp only [length, taken, Int.toNat_natCast, present, true_and]
  cases stored : storable u.toNat with
  | false =>
    rw [if_pos rfl, keepsTo_thrown_iff]
    constructor
    · rintro ⟨n, announces, limited, -, enough⟩
      obtain ⟨-, rfl⟩ := digits_of_castUint64 cast announces
      exact .inr ⟨announces, limited, .inr enough⟩
    · rintro (⟨stores, -⟩ | ⟨announces, limited, stores | enough⟩)
      · cases stores
      · cases stores
      · exact ⟨_, announces, limited, small, enough⟩
  | true =>
    rw [if_neg (by simp)]
    by_cases cut : CutOff u.toNat data (data ++ arriving reads)
    · rw [recvBody_cutOff length small cut]
      exact iff_of_true keepsTo_closed (.inl ⟨rfl, cut⟩)
    -- all `u` bytes are there, and they are what is announced or they are not
    · obtain ⟨enough, dropped, later, returned⟩ := recvBody_whole length positive small cut
      rw [returned, keepsTo_request_iff, SessionRequest.init_body]
      constructor
      · rintro ⟨n, announces, ⟨limited, -, -⟩, -⟩
        obtain ⟨-, rfl⟩ := digits_of_castUint64 cast announces
        exact .inr ⟨announces, limited, .inl rfl⟩
      · rintro (⟨-, cuts⟩ | ⟨announces, limited, -⟩)
        · exact absurd cuts cut
        · exact ⟨_, announces, ⟨limited, small, enough⟩, rfl⟩

end Outcome

/-- One call keeps to the announced length exactly when `LengthKept` holds. -/
theorem keepsTo_iff {storable : Nat → Bool} {lexicalCast : Bytes → Option UInt64} {buffSize : Nat}
    {limit : UInt64} {memory : Memory} {head leftover : Bytes} {request : HttpRequest}
    {reads : List Bytes} (casts : ∀ text, lexicalCast text = castUint64 text)
    (parsed : parseHead memory.uriRelaxed head = some request) :
    KeepsTo (announced (findHeader request.headers (bytes "content-length"))) limit
        (leftover ++ arriving reads)
        (recvRequestStoring storable lexicalCast buffSize memory ((head ++ leftover) :: reads)) ↔
      LengthKept storable buffSize limit (findHeader request.headers (bytes "content-length"))
        leftover (leftover ++ arriving reads) := by
  -- the loop compares what is left of the buffer with its size before it asks for the end
  by_cases full : (leftover.length : Int) = cInt buffSize
  · rw [recvRequestStoring, (recvRequestHead_of_parsed parsed reads).1 full]
    exact iff_of_true keepsTo_closed (.full full)
  obtain ⟨parser, finished, rfl⟩ := (recvRequestHead_of_parsed parsed reads).2 full
  have length := getContentLength_eq casts parser.received.data
  simp only [recvRequestStoring, finished]
  -- only a positive `int64_t` asks for a body
  by_cases body : ∃ u, (findHeader parser.received.data.headers
    (bytes "content-length")).bind castUint64 = some u ∧ 0 < u.toNat ∧ u.toNat < 2 ^ 63
  · obtain ⟨u, cast, positive, small⟩ := body
    rw [cast, Option.getD_some] at length
    rw [keepsTo_iff_body length positive small cast,
      lengthKept_iff_body full cast positive small]
  · have none : ∀ u, (findHeader parser.received.data.headers
        (bytes "content-length")).bind castUint64 = some u → 0 < u.toNat → 2 ^ 63 ≤ u.toNat := by
      intro u cast positive
      by_contra below
      exact body ⟨u, cast, positive, Nat.not_le.mp below⟩
    rw [keepsTo_iff_empty length none rfl, lengthKept_iff_empty full none]

/-- The body comes in two reads, the first of which holds the head. -/
theorem keepsTo_iff_split_body :
    KeepsTo (some 3) 67108864 (bytes "x" ++ arriving [bytes "yz"])
      (recvRequestStoring (fun _ => true) castUint64 4096 ⟨0, false⟩
        [bytes "POST /a HTTP/1.1\x0d\ncontent-length: 3\x0d\n\x0d\n" ++ bytes "x", bytes "yz"]) := by
  have parsed : parseHead false (bytes "POST /a HTTP/1.1\x0d\ncontent-length: 3\x0d\n\x0d\n") =
      some { method := .POST, path := bytes "/a",
             headers := [(bytes "content-length", bytes "3")] } := by
    decide +kernel
  exact (@keepsTo_iff (fun _ => true) castUint64 4096 67108864 ⟨0, false⟩ _ (bytes "x") _
    [bytes "yz"] (fun _ => rfl) parsed).mpr
    (.digits 3 (by decide +kernel) (by decide) (by decide) (.inl rfl))

/-- A length that is no number is taken for 0, and the request is returned. -/
theorem unparsable_length_returned :
    let head := bytes "POST / HTTP/1.1\x0d\ncontent-length: abc\x0d\n\x0d\n"
    let request : HttpRequest :=
      { method := .POST, headers := [(bytes "content-length", bytes "abc")] }
    parseHead false head = some request ∧
      ¬ KeepsTo (announced (findHeader request.headers (bytes "content-length"))) 67108864
        ([] ++ arriving []) (recvRequestStoring (fun _ => true) castUint64 4096 ⟨0, false⟩
          [head ++ []]) := by
  intro head request
  have nothing : announced (findHeader request.headers (bytes "content-length")) = none := by
    decide +kernel
  constructor
  · decide +kernel
  · intro keeps
    have closed := keeps.refused fun n announces => by rw [nothing] at announces; cases announces
    revert closed
    decide +kernel

end Dwframe.Http
