import Dwframe.Http.Response
import Dwframe.Http.ResponseMachine
import Dwframe.Lib.Strtol

/-!
# The response parser

`httpclient_parser_execute` runs the machine over one buffer, and the callbacks of
`HttpResponseParser` fill an `HttpResponse`. `mark`, `field_start` and `field_len` are cleared when
a call starts; `body_start` and what was read of the framing stay, and `status` is not initialised.
Numbers are read up to the end of the buffer, where the code asserts a NUL; a text that would go
past it is a fault. `on_response_chunk`, `on_response_last_chunk` and `on_response_header_done` do
nothing.
-/
open Dwframe.Lib

namespace Dwframe.Http

/-- `(int)n` of a `long`. -/
def intOfLong (n : Int) : Int := n.bmod (2 ^ 32)

/-- `atoi`. -/
def atoi (text : Bytes) : Int := intOfLong (strtol 10 text)

/-- `std::string(at, length)`; `none` where it throws or reads behind the buffer. -/
def bufferString (start : Bytes) (length : Int) : Option Bytes :=
  if length ≤ start.length then stdString start length else none

/-- `httpclient_parser`. -/
structure HttpClientParser where
  cs : Nat
  bodyStart : Nat := 0
  contentLen : Int := -1
  status : Int
  chunked : Bool := false
  chunksDone : Bool := false
  close : Bool := false
  nread : Nat := 0
  mark : Nat := 0
  fieldStart : Nat := 0
  fieldLen : Int := 0
  deriving DecidableEq, Repr

/-- `httpclient_parser_init`; `status` is what the memory held. -/
def HttpClientParser.init (status : Int) : HttpClientParser :=
  { cs := ClientTable.startState, status := status }

/-- `HttpResponseParser`: `m_parser`, `m_data` and `m_error`. -/
structure HttpResponseParser where
  parser : HttpClientParser
  data : HttpResponse := {}
  error : Nat := 0
  deriving DecidableEq, Repr

namespace HttpResponseParser

def init (status : Int) : HttpResponseParser := { parser := .init status }

/-! ### Callbacks -/

def setError (p : HttpResponseParser) (v : Nat) : HttpResponseParser := { p with error := v }

def onResponseReason (p : HttpResponseParser) (start : Bytes) (length : Int) :
    Option HttpResponseParser :=
  (bufferString start length).map fun reason => { p with data := { p.data with reason := reason } }

def onResponseStatus (p : HttpResponseParser) (start : Bytes) (_length : Int) :
    Option HttpResponseParser :=
  some { p with data := { p.data with status := UInt32.ofInt (atoi start) } }

def onResponseVersion (p : HttpResponseParser) (start : Bytes) (length : Int) :
    Option HttpResponseParser :=
  if strncmpEq start (bytes "HTTP/1.1") length.toNat then
    some { p with data := { p.data with version := 0x11 } }
  else if strncmpEq start (bytes "HTTP/1.0") length.toNat then
    some { p with data := { p.data with version := 0x10 } }
  else some (p.setError 1001)

def onResponseHttpField (p : HttpResponseParser) (field : Bytes) (flen : Int) (value : Bytes)
    (vlen : Int) : Option HttpResponseParser :=
  -- a field without a name is logged and skipped
  if flen = 0 then some p
  else do
    let key ← bufferString field flen
    let val ← bufferString value vlen
    some { p with data := p.data.setHeader key val }

/-! ### `httpclient_parser_execute` -/

/-- The actions of the grammar, at position `fpc`. `done` ends the run. -/
def act (buffer : Bytes) (fpc : Nat) (p : HttpResponseParser) :
    ClientAction → Option HttpResponseParser
  | .mark | .startValue => some { p with parser := { p.parser with mark := fpc } }
  | .startField => some { p with parser := { p.parser with fieldStart := fpc } }
  | .writeField =>
    some { p with parser := { p.parser with fieldLen := HttpParser.len p.parser.fieldStart fpc } }
  | .writeContentLen =>
    let length := intOfLong (strtol 10 (buffer.drop p.parser.mark))
    some { p with parser := { p.parser with contentLen := length } }
  | .writeConnectionClose => some { p with parser := { p.parser with close := true } }
  | .writeValue =>
    p.onResponseHttpField (buffer.drop p.parser.fieldStart) p.parser.fieldLen
      (buffer.drop p.parser.mark) (HttpParser.len p.parser.mark fpc)
  | .reasonPhrase =>
    p.onResponseReason (buffer.drop p.parser.mark) (HttpParser.len p.parser.mark fpc)
  | .statusCode =>
    let status := atoi (buffer.drop p.parser.mark)
    { p with parser := { p.parser with status := status } }.onResponseStatus
      (buffer.drop p.parser.mark) (HttpParser.len p.parser.mark fpc)
  | .httpVersion =>
    p.onResponseVersion (buffer.drop p.parser.mark) (HttpParser.len p.parser.mark fpc)
  | .chunkSize =>
    let length := intOfLong (strtol 16 (buffer.drop p.parser.mark))
    some { p with
      parser := { p.parser with
        chunked := true, contentLen := length, chunksDone := decide (length ≤ 0) } }
  | .transChunked => some { p with parser := { p.parser with chunked := true } }
  | .done => some { p with parser := { p.parser with bodyStart := fpc + 1 } }

/-- The machine over the rest of the buffer. -/
def exec (buffer : Bytes) : Nat → HttpResponseParser → Nat → Bytes →
    Option (Halt Nat HttpResponseParser) :=
  clientDelta.run (act buffer) (· == .done)

/-- How a call ends. -/
inductive Executed where
  /-- The number of bytes read. -/
  | returned (p : HttpResponseParser) (nread : Nat)
  /-- `-1`: a register lies behind the buffer. -/
  | failed
  /-- An assertion fails. -/
  | aborted
  /-- A callback throws, or reads behind the buffer. -/
  | fault
  deriving DecidableEq, Repr

/-- The registers that are cleared when a call starts. -/
def reset (p : HttpResponseParser) : HttpResponseParser :=
  { p with parser := { p.parser with nread := 0, mark := 0, fieldStart := 0, fieldLen := 0 } }

/-- The end of `httpclient_parser_execute`, with its assertions and checks. -/
def finishCall (len : Nat) (halt : Halt Nat HttpResponseParser) : Executed :=
  let parser := { halt.registers.parser with
    cs := halt.state.getD ClientTable.errorState, nread := halt.position }
  if halt.position ≤ len ∧ parser.bodyStart ≤ len then
    -- the length is a `size_t`, a negative one a large number
    if parser.mark < len ∧ (0 ≤ parser.fieldLen ∧ parser.fieldLen ≤ (len : Int)) ∧
        parser.fieldStart < len then
      .returned { halt.registers with parser := parser } parser.nread
    else .failed
  else .aborted

/-- `httpclient_parser_execute(parser, buffer, len, 0)`. -/
def executeBuffer (p : HttpResponseParser) (buffer : Bytes) : Executed :=
  match exec buffer p.parser.cs p.reset 0 buffer with
  | none => .fault
  | some halt => finishCall buffer.length halt

/-- `HttpResponseParser::execute`; what `memmove` leaves of the data is `data.drop nread`. -/
def execute (p : HttpResponseParser) (data : Bytes) (chunck : Bool) : Executed :=
  if chunck then executeBuffer { p with parser := .init p.parser.status } data
  else executeBuffer p data

/-! ### What the caller asks -/

/-- `httpclient_parser_has_error` and `httpclient_parser_is_finished`, which compares for equality
with the first of the final states. -/
def parserHasError (p : HttpResponseParser) : Bool := p.parser.cs == ClientTable.errorState

def parserIsFinished (p : HttpResponseParser) : Bool := p.parser.cs == ClientTable.firstFinal

/-- `isFinished`, by `httpclient_parser_finish`. -/
def isFinished (p : HttpResponseParser) : Int :=
  if p.parserHasError then -1 else if p.parserIsFinished then 1 else 0

def hasError (p : HttpResponseParser) : Bool := p.error != 0 || p.parserHasError

/-- `getContentLength`, with `boost::lexical_cast<uint64_t>` as a parameter. -/
def getContentLength (lexicalCast : Bytes → Option UInt64) (p : HttpResponseParser) : UInt64 :=
  match findHeader p.data.headers (bytes "content-length") with
  | none => 0
  | some value => (lexicalCast value).getD 0

end HttpResponseParser

end Dwframe.Http
