import Dwframe.Http.Machine

/-!
# The request parser

`http_parser_execute` runs the machine over one buffer, and `HttpRequestParser` turns its
callbacks into an `HttpRequest`. Positions in `http_parser` are relative to the buffer of the
current call: `mark`, `field_start` and `field_len` are cleared when a call starts,
`query_start` is not, and is not initialised either.

`body_start`, `content_len`, `xml_sent` and `json_sent` are read by nothing and `header_done`
does nothing; they are left out, as are the log lines.
-/
namespace Dwframe.Http

abbrev Bytes := List UInt8

/-- The bytes of an ASCII literal. -/
def bytes (s : String) : Bytes := s.toList.map fun c => UInt8.ofNat c.toNat

/-! ### Methods -/

/-- `HTTP_METHOD_MAP`. -/
inductive HttpMethod where
  | DELETE | GET | HEAD | POST | PUT | CONNECT | OPTIONS | TRACE | COPY | LOCK | MKCOL | MOVE
  | PROPFIND | PROPPATCH | SEARCH | UNLOCK | BIND | REBIND | UNBIND | ACL | REPORT | MKACTIVITY
  | CHECKOUT | MERGE | MSEARCH | NOTIFY | SUBSCRIBE | UNSUBSCRIBE | PATCH | PURGE | MKCALENDAR
  | LINK | UNLINK | SOURCE | INVALID_METHOD
  deriving DecidableEq, Repr

def httpMethodMap : List (Bytes × HttpMethod) :=
  [(bytes "DELETE", .DELETE), (bytes "GET", .GET), (bytes "HEAD", .HEAD), (bytes "POST", .POST),
    (bytes "PUT", .PUT), (bytes "CONNECT", .CONNECT), (bytes "OPTIONS", .OPTIONS),
    (bytes "TRACE", .TRACE), (bytes "COPY", .COPY), (bytes "LOCK", .LOCK),
    (bytes "MKCOL", .MKCOL), (bytes "MOVE", .MOVE), (bytes "PROPFIND", .PROPFIND),
    (bytes "PROPPATCH", .PROPPATCH), (bytes "SEARCH", .SEARCH), (bytes "UNLOCK", .UNLOCK),
    (bytes "BIND", .BIND), (bytes "REBIND", .REBIND), (bytes "UNBIND", .UNBIND),
    (bytes "ACL", .ACL), (bytes "REPORT", .REPORT), (bytes "MKACTIVITY", .MKACTIVITY),
    (bytes "CHECKOUT", .CHECKOUT), (bytes "MERGE", .MERGE), (bytes "M-SEARCH", .MSEARCH),
    (bytes "NOTIFY", .NOTIFY), (bytes "SUBSCRIBE", .SUBSCRIBE),
    (bytes "UNSUBSCRIBE", .UNSUBSCRIBE), (bytes "PATCH", .PATCH), (bytes "PURGE", .PURGE),
    (bytes "MKCALENDAR", .MKCALENDAR), (bytes "LINK", .LINK), (bytes "UNLINK", .UNLINK),
    (bytes "SOURCE", .SOURCE)]

/-- `CharsToHttpMethod`: `m` is a pointer without a length, and the first name that is a prefix
of what it points to wins. -/
def charsToHttpMethod (m : Bytes) : HttpMethod :=
  match httpMethodMap.find? fun entry => entry.1.isPrefixOf m with
  | some entry => entry.2
  | none => .INVALID_METHOD

/-! ### Requests -/

/-- `tolower` on a byte. -/
def toLower (b : UInt8) : UInt8 := if 65 ≤ b ∧ b ≤ 90 then b + 32 else b

/-- `CaseInsensitiveLess`: `strcasecmp` of the two strings up to a NUL, below zero. -/
def caseInsensitiveLess : Bytes → Bytes → Bool
  | _, [] => false
  | [], b :: _ => b != 0
  | a :: as, b :: bs =>
    -- equal up to case; a NUL ends both strings
    if toLower a = toLower b then a != 0 && caseInsensitiveLess as bs
    else decide (toLower a < toLower b)

/-- `m_headers[key] = val` on the ordered map: an equivalent key keeps its spelling. -/
def setHeader (key val : Bytes) : List (Bytes × Bytes) → List (Bytes × Bytes)
  | [] => [(key, val)]
  | (k, v) :: rest =>
    if caseInsensitiveLess k key then (k, v) :: setHeader key val rest
    else if caseInsensitiveLess key k then (key, val) :: (k, v) :: rest
    else (k, val) :: rest

/-- The fields of `HttpRequest` that a request head sets. -/
structure HttpRequest where
  method : HttpMethod := .GET
  version : UInt8 := 0x11
  path : Bytes := bytes "/"
  query : Bytes := []
  fragment : Bytes := []
  headers : List (Bytes × Bytes) := []
  deriving DecidableEq, Repr

/-! ### Callbacks -/

/-- The members of `http_parser` of type `element_cb`. -/
inductive Element where
  | requestMethod
  | requestUri
  | fragment
  | requestPath
  | queryString
  | httpVersion
  deriving DecidableEq, Repr

/-- A call made by the machine. A pointer is the buffer from that position on; a length is what
the subtraction in `LEN` gives, negative where the `size_t` wraps. -/
inductive Callback where
  | element (element : Element) (start : Bytes) (length : Int)
  | field (field : Bytes) (flen : Int) (value : Bytes) (vlen : Int)
  deriving DecidableEq, Repr

/-- `std::string(at, length)`; a wrapped length throws `std::length_error`. -/
def stdString (start : Bytes) (length : Int) : Option Bytes :=
  if length < 0 then none else some (start.take length.toNat)

/-- `strncmp(at, literal, length) == 0`. -/
def strncmpEq : Bytes → Bytes → Nat → Bool
  | _, _, 0 => true
  | a :: as, l :: ls, n + 1 => a == l && (a == 0 || strncmpEq as ls n)
  | a :: _, [], _ + 1 => a == 0
  | [], _, _ + 1 => false

/-- `m_data` and `m_error` of `HttpRequestParser`. -/
structure Received where
  data : HttpRequest := {}
  error : Nat := 0
  deriving DecidableEq, Repr

namespace Received

def setError (r : Received) (v : Nat) : Received := { r with error := v }

def onRequestMethod (r : Received) (start : Bytes) (_length : Int) : Option Received :=
  let m := charsToHttpMethod start
  if m = .INVALID_METHOD then some (r.setError 1000)
  else some { r with data := { r.data with method := m } }

def onRequestUri (r : Received) (_start : Bytes) (_length : Int) : Option Received := some r

/-- `on_request_fragment`, `on_request_path` and `on_request_query` store the text. -/
def onText (set : HttpRequest → Bytes → HttpRequest) (r : Received) (start : Bytes)
    (length : Int) : Option Received :=
  (stdString start length).map fun text => { r with data := set r.data text }

def onRequestFragment : Received → Bytes → Int → Option Received :=
  onText fun data text => { data with fragment := text }

def onRequestPath : Received → Bytes → Int → Option Received :=
  onText fun data text => { data with path := text }

def onRequestQuery : Received → Bytes → Int → Option Received :=
  onText fun data text => { data with query := text }

def onRequestVersion (r : Received) (start : Bytes) (length : Int) : Option Received :=
  if strncmpEq start (bytes "HTTP/1.1") length.toNat then
    some { r with data := { r.data with version := 0x11 } }
  else if strncmpEq start (bytes "HTTP/1.0") length.toNat then
    some { r with data := { r.data with version := 0x10 } }
  else some (r.setError 1001)

def onRequestHttpField (r : Received) (field : Bytes) (flen : Int) (value : Bytes)
    (vlen : Int) : Option Received :=
  -- a field without a name is logged and skipped
  if flen = 0 then some r
  else do
    let key ← stdString field flen
    let val ← stdString value vlen
    some { r with data := { r.data with headers := setHeader key val r.data.headers } }

/-- The callbacks installed by the constructor; `none` is an exception. -/
def on (r : Received) : Callback → Option Received
  | .element .requestMethod start length => r.onRequestMethod start length
  | .element .requestUri start length => r.onRequestUri start length
  | .element .fragment start length => r.onRequestFragment start length
  | .element .requestPath start length => r.onRequestPath start length
  | .element .queryString start length => r.onRequestQuery start length
  | .element .httpVersion start length => r.onRequestVersion start length
  | .field field flen value vlen => r.onRequestHttpField field flen value vlen

end Received

/-! ### `http_parser_execute` -/

/-- `http_parser`. -/
structure HttpParser where
  cs : Nat
  mark : Nat
  fieldStart : Nat
  fieldLen : Int
  queryStart : Nat
  uriRelaxed : Bool
  deriving DecidableEq, Repr

namespace HttpParser

/-- `http_parser_init`; `queryStart` and `uriRelaxed` are what the memory held. -/
def init (queryStart : Nat) (uriRelaxed : Bool) : HttpParser :=
  ⟨startState, 0, 0, 0, queryStart, uriRelaxed⟩

/-- `LEN`. -/
def len (register fpc : Nat) : Int := (fpc : Int) - register

/-- An element callback on the text since `mark`. -/
def marked (parser : HttpParser) (buffer : Bytes) (fpc : Nat) (element : Element) :
    List Callback :=
  [.element element (buffer.drop parser.mark) (len parser.mark fpc)]

/-- The actions of the grammar. `done` leaves the loop, which `exec` does. -/
def act (buffer : Bytes) (fpc : Nat) (parser : HttpParser) :
    ParserAction → HttpParser × List Callback
  | .mark => ({ parser with mark := fpc }, [])
  | .startField => ({ parser with fieldStart := fpc }, [])
  | .writeField => ({ parser with fieldLen := len parser.fieldStart fpc }, [])
  | .startValue => ({ parser with mark := fpc }, [])
  | .writeValue => (parser, [.field (buffer.drop parser.fieldStart) parser.fieldLen
      (buffer.drop parser.mark) (len parser.mark fpc)])
  | .requestMethod => (parser, parser.marked buffer fpc .requestMethod)
  | .requestUri => (parser, parser.marked buffer fpc .requestUri)
  | .fragment => (parser, parser.marked buffer fpc .fragment)
  | .startQuery => ({ parser with queryStart := fpc }, [])
  | .queryString => (parser, [.element .queryString (buffer.drop parser.queryStart)
      (len parser.queryStart fpc)])
  | .httpVersion => (parser, parser.marked buffer fpc .httpVersion)
  | .requestPath => (parser, parser.marked buffer fpc .requestPath)
  | .done | .xml | .json => (parser, [])

def perform (buffer : Bytes) (fpc : Nat) : HttpParser → List ParserAction →
    HttpParser × List Callback
  | parser, [] => (parser, [])
  | parser, action :: actions =>
    let acted := act buffer fpc parser action
    let performed := perform buffer fpc acted.1 actions
    (performed.1, acted.2 ++ performed.2)

/-- What a call of `http_parser_execute` did. -/
structure Executed where
  parser : HttpParser
  nread : Nat
  calls : List Callback

/-- The machine over the rest of the buffer, `p` bytes of which are read. An error leaves `p` at
the byte, `done` after it. -/
def exec (buffer : Bytes) : HttpParser → Nat → Bytes → Executed
  | parser, p, [] => ⟨parser, p, []⟩
  | parser, p, b :: rest =>
    match delta parser.uriRelaxed parser.cs b with
    | none => ⟨{ parser with cs := errorState }, p, []⟩
    | some (target, actions) =>
      let performed := perform buffer p { parser with cs := target } actions
      -- `fbreak` is the last action of its transition
      if .done ∈ actions then ⟨performed.1, p + 1, performed.2⟩
      else
        let after := exec buffer performed.1 (p + 1) rest
        ⟨after.parser, after.nread, performed.2 ++ after.calls⟩

/-- The registers cleared when a call starts. -/
def reset (parser : HttpParser) : HttpParser :=
  { parser with mark := 0, fieldStart := 0, fieldLen := 0 }

/-- `http_parser_execute(parser, buffer, len, 0)`. A parser in the error state stays there, as
that state has no edges. -/
def execute (parser : HttpParser) (buffer : Bytes) : Executed :=
  if buffer = [] then ⟨parser, 0, []⟩ else exec buffer parser.reset 0 buffer

def hasError (parser : HttpParser) : Bool := parser.cs == errorState

def isFinished (parser : HttpParser) : Bool := decide (firstFinal ≤ parser.cs)

/-- `http_parser_finish`. -/
def finish (parser : HttpParser) : Int :=
  if parser.hasError then -1 else if parser.isFinished then 1 else 0

end HttpParser

/-! ### `HttpRequestParser` -/

structure HttpRequestParser where
  parser : HttpParser
  received : Received
  deriving DecidableEq, Repr

namespace HttpRequestParser

def init (queryStart : Nat) (uriRelaxed : Bool) : HttpRequestParser :=
  ⟨.init queryStart uriRelaxed, {}⟩

/-- `HttpRequestParser::execute`: the parser, and what `memmove` leaves of the data; `none` when
a callback throws. -/
def execute (p : HttpRequestParser) (data : Bytes) : Option (HttpRequestParser × Bytes) :=
  let executed := p.parser.execute data
  (executed.calls.foldlM Received.on p.received).map fun received =>
    (⟨executed.parser, received⟩, data.drop executed.nread)

def hasError (p : HttpRequestParser) : Bool := p.received.error != 0 || p.parser.hasError

def isFinished (p : HttpRequestParser) : Int := p.parser.finish

end HttpRequestParser

end Dwframe.Http
