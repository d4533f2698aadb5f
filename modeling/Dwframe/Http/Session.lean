import Mathlib.Algebra.GroupWithZero.Nat
import Dwframe.Http.Parser

/-!
# Receiving a request

`HttpSession::recvRequest`: the read/execute loop, then the body that `content-length` announces.
The socket is the list of what successive `read` calls return, each no longer than the room it was
asked to fill; a `read` with nothing left returns 0, and what `readFixSize` did not ask for stays
in the socket. The buffer lives for one call. `boost::lexical_cast<uint64_t>` is a parameter,
`none` where it throws.
-/
namespace Dwframe.Http

/-- `(int)n`. -/
def cInt (n : Nat) : Int := Int.bmod n (2 ^ 32)

theorem cInt_of_lt {n : Nat} (small : n < 2 ^ 31) : cInt n = n := by
  unfold cInt
  rw [Int.bmod_eq_of_le] <;> omega

/-- How the loop ends: with a finished parser, the bytes behind the head and the reads to come;
closed, with `nullptr`; or by an exception. -/
inductive HeadOutcome where
  | finished (parser : HttpRequestParser) (data : Bytes) (reads : List Bytes)
  | closed
  | thrown
  deriving DecidableEq, Repr

/-- The request that the loop produced. -/
def HeadOutcome.request? : HeadOutcome → Option HttpRequest
  | .finished parser _ _ => some parser.received.data
  | .closed | .thrown => none

/-- The `do … while(true)` of `recvRequest`; `data` are the `offset` bytes kept in the buffer. -/
def recvRequestLoop (buffSize : Nat) : HttpRequestParser → Bytes → List Bytes → HeadOutcome
  | _, _, [] => .closed
  | parser, data, read :: reads =>
    if read = [] then .closed
    else
      match parser.execute (data ++ read) with
      | none => .thrown
      | some (parser, data) =>
        if parser.hasError then .closed
        -- nothing was consumed and the buffer is full
        else if (data.length : Int) = cInt buffSize then .closed
        else if parser.isFinished ≠ 0 then .finished parser data reads
        else recvRequestLoop buffSize parser data reads

/-- The loop with a new parser, over memory that held `queryStart`. -/
def recvRequestHead (buffSize queryStart : Nat) (uriRelaxed : Bool) (reads : List Bytes) :
    HeadOutcome :=
  recvRequestLoop buffSize (.init queryStart uriRelaxed) [] reads

/-! ### Headers -/

/-- `(int64_t)n`. -/
def cInt64 (n : UInt64) : Int := Int.bmod n.toNat (2 ^ 64)

theorem cInt64_of_lt {n : UInt64} (small : n.toNat < 2 ^ 63) : cInt64 n = n.toNat := by
  unfold cInt64
  rw [Int.bmod_eq_of_le] <;> omega

/-- `strcasecmp(a, b) == 0`. -/
def strcasecmpEq (a b : Bytes) : Bool := !caseInsensitiveLess a b && !caseInsensitiveLess b a

/-- `m_headers.find(key)`. -/
def findHeader (headers : List (Bytes × Bytes)) (key : Bytes) : Option Bytes :=
  (headers.find? fun entry => strcasecmpEq entry.1 key).map Prod.snd

/-- `getHeader(key, def)`. -/
def HttpRequest.getHeader (request : HttpRequest) (key : Bytes) (default : Bytes := []) : Bytes :=
  (findHeader request.headers key).getD default

/-- `getHeaderAs<uint64_t>(key, def)`. -/
def HttpRequest.getHeaderAs (lexicalCast : Bytes → Option UInt64) (request : HttpRequest)
    (key : Bytes) (default : UInt64) : UInt64 :=
  match findHeader request.headers key with
  | none => default
  | some value => (lexicalCast value).getD default

/-- `getContentLength`. -/
def HttpRequest.getContentLength (lexicalCast : Bytes → Option UInt64)
    (request : HttpRequest) : UInt64 :=
  request.getHeaderAs lexicalCast (bytes "content-length") 0

/-- A request as `recvRequest` returns it. -/
structure SessionRequest extends HttpRequest where
  body : Bytes := []
  close : Bool := true
  deriving DecidableEq, Repr

/-- `HttpRequest::init`. -/
def SessionRequest.init (request : SessionRequest) : SessionRequest :=
  let conn := request.getHeader (bytes "connection")
  if conn = [] then request
  else { request with close := !strcasecmpEq conn (bytes "keep-alive") }

/-! ### The body -/

/-- The `while` of `readFixSize`: the bytes stored and the reads to come; `none` if a read gives
nothing. -/
def readFixSizeLoop : Nat → List Bytes → Option (Bytes × List Bytes)
  | 0, reads => some ([], reads)
  | _ + 1, [] => none
  | left + 1, read :: reads =>
    if read = [] then none
    -- no more than `left` bytes are asked for
    else if left + 1 < read.length then
      some (read.take (left + 1), read.drop (left + 1) :: reads)
    else
      (readFixSizeLoop (left + 1 - read.length) reads).map fun (stored, reads) =>
        (read ++ stored, reads)

/-- `readFixSize(buffer, length)`: its result, the bytes stored and the reads to come. -/
def readFixSize (length : Nat) (reads : List Bytes) : Int × Bytes × List Bytes :=
  match readFixSizeLoop length reads with
  | none => (0, [], [])
  | some (stored, reads) => (cInt length, stored, reads)

/-- How `recvRequest` ends: with a request, the bytes that go with the buffer and the reads to
come; closed, with `nullptr`; or by an exception. -/
inductive RecvOutcome where
  | request (request : SessionRequest) (dropped : Bytes) (reads : List Bytes)
  | closed
  | thrown
  deriving DecidableEq, Repr

/-- `recvRequest` behind the loop; `data` are the `offset` bytes in the buffer. -/
def recvBody (lexicalCast : Bytes → Option UInt64) (request : SessionRequest) (data : Bytes)
    (reads : List Bytes) : RecvOutcome :=
  let length := cInt64 (request.getContentLength lexicalCast)
  if 0 < length then
    -- the buffer first, then the socket
    let body := data.take length.toNat
    let left := length - data.length
    if 0 < left then
      match readFixSize left.toNat reads with
      | (result, stored, reads) =>
        if result ≤ 0 then .closed
        else .request { request with body := body ++ stored }.init [] reads
    -- what the buffer holds behind the body is not kept
    else .request { request with body := body }.init (data.drop length.toNat) reads
  else .request request.init data reads

/-- What the memory of a new `http_parser` held where `http_parser_init` sets nothing. -/
structure Memory where
  queryStart : Nat
  uriRelaxed : Bool
  deriving DecidableEq, Repr

/-- `recvRequest`. -/
def recvRequest (lexicalCast : Bytes → Option UInt64) (buffSize : Nat) (memory : Memory)
    (reads : List Bytes) : RecvOutcome :=
  match recvRequestHead buffSize memory.queryStart memory.uriRelaxed reads with
  | .closed => .closed
  | .thrown => .thrown
  | .finished parser data reads =>
    recvBody lexicalCast { toHttpRequest := parser.received.data } data reads

/-- The calls of one session, until one returns no request: the requests, each with the bytes that
its call read and dropped. -/
def recvRequests (lexicalCast : Bytes → Option UInt64) (buffSize : Nat) :
    List Memory → List Bytes → List (SessionRequest × Bytes)
  | [], _ => []
  | memory :: later, reads =>
    match recvRequest lexicalCast buffSize memory reads with
    | .request request dropped reads =>
      (request, dropped) :: recvRequests lexicalCast buffSize later reads
    | .closed | .thrown => []

end Dwframe.Http
