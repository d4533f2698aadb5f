import Dwframe.Http.HeaderMap

/-!
# Printing a request

`HttpRequest::dump`, and the requests whose text the grammar of `http11_parser.rl` describes.
-/
open Dwframe.Lib

namespace Dwframe.Http

/-- `HttpMethodToString`. -/
def httpMethodToString (m : HttpMethod) : Bytes :=
  match httpMethodMap.find? fun entry => entry.2 == m with
  | some entry => entry.1
  | none => bytes "<unknown>"

/-- A request with all that `dump` reads. -/
structure OutgoingRequest extends SessionRequest where
  websocket : Bool := false
  deriving DecidableEq, Repr

namespace OutgoingRequest

/-- The path, the query and the fragment. -/
def uri (request : OutgoingRequest) : Bytes :=
  request.path ++ (if request.query = [] then [] else bytes "?") ++ request.query ++
    (if request.fragment = [] then [] else bytes "#") ++ request.fragment

/-- `dump`. -/
def dump (request : OutgoingRequest) : Bytes :=
  httpMethodToString request.method ++ bytes " " ++ request.uri ++ bytes " " ++
  versionText request.version ++ crlf ++
  (if request.websocket then [] else connectionLine request.close ++ crlf) ++
  (headerMapLines request.websocket request.headers).flatMap (· ++ crlf) ++
  (if request.body = [] then crlf
    else contentLengthLine request.body.length ++ crlf ++ crlf ++ request.body)

end OutgoingRequest

/-! ### The characters of the grammar -/

def isAlpha (b : UInt8) : Bool := (65 ≤ b && b ≤ 90) || (97 ≤ b && b ≤ 122)

def isXdigit (b : UInt8) : Bool := isDigit b || (65 ≤ b && b ≤ 70) || (97 ≤ b && b ≤ 102)

/-- `pchar` without `pct_encoded` and `more_delims`. -/
def isPchar (b : UInt8) : Bool :=
  128 ≤ b || isAlpha b || isDigit b || (bytes "-._~!$&'()*+,;=:@").contains b

/-- What a path consists of. -/
def isPathChar (b : UInt8) : Bool := isPchar b || b == 47

/-- What a query or a fragment consists of. -/
def isQueryChar (b : UInt8) : Bool := isPchar b || b == 47 || b == 63

/-- `token`: printable ASCII but for the separators. -/
def isToken (b : UInt8) : Bool :=
  33 ≤ b && b ≤ 126 && !(bytes "()<>@,;:\\\"/[]?=\x7b\x7d").contains b

/-- `HTTP_CTL`. -/
def isControl (b : UInt8) : Bool := b ≤ 31 || b == 127

/-- Characters, and percent signs with two digits behind them. -/
inductive UriText (plain : UInt8 → Bool) : Bytes → Prop where
  | nil : UriText plain []
  | char {b : UInt8} {rest : Bytes} (allowed : plain b) (more : UriText plain rest) :
      UriText plain (b :: rest)
  | encoded {high low : UInt8} {rest : Bytes} (first : isXdigit high) (second : isXdigit low)
      (more : UriText plain rest) : UriText plain (37 :: high :: low :: rest)

/-- A token as the name, and a value that begins with no blank. -/
structure HeaderText (header : Bytes × Bytes) : Prop where
  named : header.1 ≠ []
  token : ∀ b ∈ header.1, isToken b
  value : ∀ b ∈ header.2, isControl b = false
  solid : ∀ b ∈ header.2.head?, isBlank b = false

/-- A header of the map, other than the two that `dump` prints on its own. -/
structure PlainHeader (header : Bytes × Bytes) : Prop extends HeaderText header where
  connection : strcasecmpEq header.1 (bytes "connection") = false
  contentLength : strcasecmpEq header.1 (bytes "content-length") = false

/-- A request of the grammar, for either value of `uri_relaxed`. -/
structure OutgoingRequest.Printable (request : OutgoingRequest) : Prop where
  method : request.method ≠ .INVALID_METHOD
  version : request.version = 0x10 ∨ request.version = 0x11
  plain : request.websocket = false
  path : ∃ segments, request.path = 47 :: segments ∧ UriText isPathChar segments ∧
    segments.head? ≠ some 47
  query : UriText isQueryChar request.query
  fragment : UriText isQueryChar request.fragment
  sorted : SortedKeys request.headers
  headers : ∀ h ∈ request.headers, PlainHeader h

/-- The header map with the entries that `dump` prints around it. -/
def OutgoingRequest.printedHeaders (request : OutgoingRequest) : List (Bytes × Bytes) :=
  let headers := setHeader (bytes "connection")
    (if request.close then bytes "close" else bytes "keep-alive") request.headers
  if request.body = [] then headers
  else setHeader (bytes "content-length") (toDecimal request.body.length) headers

/-- In that map the two printed entries are found, and every header of the request. -/
theorem OutgoingRequest.Printable.findHeader_printedHeaders {request : OutgoingRequest}
    (printable : request.Printable) :
    findHeader request.printedHeaders (bytes "connection") =
        some (if request.close then bytes "close" else bytes "keep-alive") ∧
      (request.body ≠ [] → findHeader request.printedHeaders (bytes "content-length") =
        some (toDecimal request.body.length)) ∧
      ∀ h ∈ request.headers, findHeader request.printedHeaders h.1 = some h.2 := by
  have apart : strcasecmpEq (bytes "content-length") (bytes "connection") = false ∧
      strcasecmpEq (bytes "connection") (bytes "connection") = true ∧
      strcasecmpEq (bytes "content-length") (bytes "content-length") = true := by decide +kernel
  have symm : ∀ {a b : Bytes}, strcasecmpEq a b = false → strcasecmpEq b a = false := by
    intro a b differ
    rw [Bool.eq_false_iff, ne_eq, strcasecmpEq_iff] at differ ⊢
    exact fun same => differ same.symm
  unfold printedHeaders
  by_cases empty : request.body = []
  · rw [if_pos empty]
    refine ⟨?_, fun present => absurd empty present, fun h member => ?_⟩
    · rw [findHeader_setHeader, if_pos apart.2.1]
    · have connection := symm (printable.headers h member).connection
      rw [findHeader_setHeader, connection]
      exact findHeader_of_mem printable.sorted member
  · rw [if_neg empty]
    refine ⟨?_, fun _ => ?_, fun h member => ?_⟩
    · rw [findHeader_setHeader, apart.1, findHeader_setHeader, if_pos apart.2.1]
      rfl
    · rw [findHeader_setHeader, if_pos apart.2.2]
    · have connection := symm (printable.headers h member).connection
      have length := symm (printable.headers h member).contentLength
      rw [findHeader_setHeader, length, findHeader_setHeader, connection]
      exact findHeader_of_mem printable.sorted member

end Dwframe.Http
