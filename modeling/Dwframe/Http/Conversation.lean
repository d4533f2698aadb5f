import Dwframe.Http.Pipeline
import Dwframe.Http.RoundTrip
import Dwframe.Http.Server

/-!
# A connection from the socket up

`handleClient` over the reads of the socket, with `recvRequest` in front of every round. A client
prints its requests with `dump` and waits for each answer, so that no read holds bytes of two
requests; then the rounds are those of the loop over the client's own requests.
-/
open Dwframe.Lib

namespace Dwframe.Http

/-- `handleClient` on a socket with these reads to come; one `Memory` for each call of
`recvRequest`. An exception of the parser leaves the loop. -/
def HttpServer.serve (server : HttpServer) (lexicalCast : Bytes → Option UInt64) (buffSize : Nat)
    (handle : SessionRequest → HttpResponse → SessionRequest × HttpResponse) :
    List Memory → List Bytes → List ClientEvent
  | [], _ => []
  | memory :: later, reads =>
    match recvRequest lexicalCast buffSize memory reads with
    | .request request _ reads =>
      let e : Exchange := ⟨request, handle⟩
      .received request :: .sent (server.handled e).2 ::
        if server.stops e then [.closed]
        else serve server lexicalCast buffSize handle later reads
    | .closed => [.failed, .closed]
    | .thrown => []

/-- A request of the client, the reads in which its text arrives, and the memory of the call that
receives it. -/
structure Turn where
  request : OutgoingRequest
  reads : List Bytes
  memory : Memory

namespace Turn

variable {turn : Turn} {buffSize : Nat} {lexicalCast : Bytes → Option UInt64}

/-- The text arrives as it was printed, its head in the first read, and a read never gives more
than the buffer holds. -/
structure Arrives (buffSize : Nat) (turn : Turn) : Prop where
  printable : turn.request.Printable
  method : turn.request.method ≠ .MSEARCH
  text : turn.reads.flatten = turn.request.dump
  nonempty : ∀ read ∈ turn.reads, read ≠ []
  first : ∃ read ∈ turn.reads.head?,
    turn.request.headText.length ≤ read.length ∧ read.length ≤ buffSize
  small : turn.request.dump.length < 2 ^ 31

/-- What the servlet gets: the header map has the entries that `dump` printed around it. -/
def received (turn : Turn) : SessionRequest :=
  { toHttpRequest := { turn.request.toHttpRequest with headers := turn.request.printedHeaders }
    body := turn.request.body
    close := turn.request.close }

/-- `boost::lexical_cast<uint64_t>` of the decimal text of a number. -/
def CastsDecimal (lexicalCast : Bytes → Option UInt64) : Prop :=
  ∀ n < 2 ^ 64, lexicalCast (toDecimal n) = some (UInt64.ofNat n)

/-- The length that the server finds is that of the body. -/
theorem framed (casts : CastsDecimal lexicalCast) (printable : turn.request.Printable)
    (small : turn.request.body.length < 2 ^ 64) :
    (turn.received.toHttpRequest.getContentLength lexicalCast).toNat =
      turn.request.body.length := by
  obtain ⟨-, length, -⟩ := printable.findHeader_printedHeaders
  unfold HttpRequest.getContentLength HttpRequest.getHeaderAs received
  dsimp only
  by_cases empty : turn.request.body = []
  · have apart : strcasecmpEq (bytes "connection") (bytes "content-length") = false := by decide
    have none : findHeader turn.request.printedHeaders (bytes "content-length") = none := by
      rw [OutgoingRequest.printedHeaders, if_pos empty, findHeader_setHeader, apart]
      exact HttpResponse.findHeader_none fun h member => (printable.headers h member).contentLength
    rw [none, empty]
    rfl
  · rw [length empty]
    dsimp only
    rw [casts _ small, Option.getD_some, UInt64.toNat_ofNat_of_lt' small]

/-- `init` finds the close flag of the client. -/
theorem init_received (printable : turn.request.Printable) (close : Bool) :
    ({ turn.received with close := close } : SessionRequest).init = turn.received := by
  obtain ⟨connection, -, -⟩ := printable.findHeader_printedHeaders
  have value : ({ turn.received with close := close } : SessionRequest).getHeader
      (bytes "connection") =
        if turn.request.close then bytes "close" else bytes "keep-alive" := by
    rw [HttpRequest.getHeader, received, connection, Option.getD_some]
  unfold SessionRequest.init
  rw [value]
  unfold received
  cases turn.request.close with
  | true => rfl
  | false => rfl

/-- The request on the wire. -/
def wire (casts : CastsDecimal lexicalCast) (turn : Turn) (arrives : turn.Arrives buffSize) :
    WireRequest lexicalCast where
  memory := turn.memory
  head := turn.request.headText
  body := turn.request.body
  request := turn.received.toHttpRequest
  parsed := by
    obtain ⟨parser, executed, sound, finished, data⟩ := OutgoingRequest.executes_headText
      arrives.printable arrives.method [] 0 turn.memory.uriRelaxed
    rw [List.append_nil] at executed
    rw [parseHead, executed]
    dsimp only
    rw [if_pos ⟨sound, finished⟩, data]
    rfl
  framed := by
    have text := congrArg List.length (OutgoingRequest.dump_eq_headText arrives.printable)
    have small := arrives.small
    rw [List.length_append] at text
    exact framed casts arrives.printable (by omega)

theorem wire_bytes (casts : CastsDecimal lexicalCast) (arrives : turn.Arrives buffSize) :
    (turn.wire casts arrives).bytes = turn.reads.flatten :=
  ((OutgoingRequest.dump_eq_headText arrives.printable).symm).trans arrives.text.symm

theorem wire_received (casts : CastsDecimal lexicalCast) (arrives : turn.Arrives buffSize) :
    (turn.wire casts arrives).received = turn.received :=
  init_received arrives.printable true

/-- One call of `recvRequest` returns the request and leaves what comes behind it. -/
theorem recvRequest_eq (buffer : buffSize < 2 ^ 31) (casts : CastsDecimal lexicalCast)
    (arrives : turn.Arrives buffSize) {later : List Bytes} (nonempty : ∀ read ∈ later, read ≠ []) :
    recvRequest lexicalCast buffSize turn.memory (turn.reads ++ later) =
      .request turn.received [] later := by
  obtain ⟨read, begins, inside, inBuffer⟩ := arrives.first
  have reads := List.eq_cons_of_mem_head? begins
  have flat : turn.reads.flatten = read ++ turn.reads.tail.flatten :=
    (congrArg List.flatten reads).trans List.flatten_cons
  have total := wire_bytes casts arrives
  have size : (turn.wire casts arrives).bytes.length = turn.request.dump.length := by
    rw [total, arrives.text]
  have ends : read.length ≤ (turn.wire casts arrives).bytes.length := by
    rw [total, flat, List.length_append]
    exact Nat.le_add_right _ _
  have small : (turn.wire casts arrives).bytes.length < 2 ^ 31 := size ▸ arrives.small
  have separate := (WireRequest.separate_iff_ends buffer small inBuffer inside).mpr ends
  have solid : ∀ r ∈ turn.reads.tail ++ later, r ≠ [] := by
    intro r member
    rcases List.mem_append.mp member with rest | behind
    · exact arrives.nonempty r (List.mem_of_mem_tail rest)
    · exact nonempty r behind
  have stream : read ++ (turn.reads.tail ++ later).flatten =
      (turn.wire casts arrives).bytes ++ later.flatten := by
    rw [total, List.flatten_append, ← List.append_assoc, flat]
  have served := (recvRequest_wire buffSize solid stream inside).1 separate
  rw [← List.cons_append, ← reads, total, dropChunks_append nonempty, wire_received] at served
  exact served

end Turn

namespace HttpServer

open Turn

variable {server : HttpServer} {buffSize : Nat} {lexicalCast : Bytes → Option UInt64}

/-- The server receives exactly the requests of its client, in order, each with its headers, its
body and its close flag, until a round closes the connection or the client has no more of them. -/
theorem serve_eq_handleClient (buffer : buffSize < 2 ^ 31) (casts : CastsDecimal lexicalCast)
    (handle : SessionRequest → HttpResponse → SessionRequest × HttpResponse) {turns : List Turn}
    (arrive : ∀ turn ∈ turns, turn.Arrives buffSize) (last : Memory) :
    server.serve lexicalCast buffSize handle (turns.map Turn.memory ++ [last])
        (turns.flatMap Turn.reads) =
      server.handleClient (turns.map fun turn => ⟨turn.received, handle⟩) := by
  induction turns with
  | nil => rfl
  | cons turn turns ih =>
    obtain ⟨here, others⟩ := List.forall_mem_cons.mp arrive
    have nonempty : ∀ read ∈ turns.flatMap Turn.reads, read ≠ [] := by
      intro read member
      obtain ⟨other, among, inside⟩ := List.mem_flatMap.mp member
      exact (others other among).nonempty read inside
    rw [List.map_cons, List.cons_append, List.flatMap_cons, serve,
      recvRequest_eq buffer casts here nonempty, List.map_cons, handleClient]
    dsimp only
    rw [ih others]

/-- A request whose body comes in two reads, and one that closes. -/
theorem serve_eq_handleClient_two :
    let server : HttpServer := ⟨true, bytes "dwframe"⟩
    let lexicalCast : Bytes → Option UInt64 := fun text => (ofDecimal text).map UInt64.ofNat
    let post : OutgoingRequest :=
      { method := .POST, path := bytes "/a", body := bytes "xyz", close := false }
    let get : OutgoingRequest := { path := bytes "/b" }
    let turns : List Turn :=
      [⟨post, [post.dump.take 64, bytes "yz"], ⟨0, false⟩⟩, ⟨get, [get.dump], ⟨9, true⟩⟩]
    server.serve lexicalCast 4096 (fun request response => (request, response))
        (turns.map Turn.memory ++ [⟨0, false⟩]) (turns.flatMap Turn.reads) =
      server.handleClient (turns.map fun turn => ⟨turn.received, fun request response =>
        (request, response)⟩) := by
  intro server lexicalCast post get turns
  have casts : CastsDecimal lexicalCast := by
    intro n _
    simp only [lexicalCast, ofDecimal_toDecimal, Option.map_some]
  have one : UriText isPathChar (bytes "a") ∧ UriText isPathChar (bytes "b") :=
    ⟨.char (by decide) .nil, .char (by decide) .nil⟩
  have posted : Arrives 4096 ⟨post, [post.dump.take 64, bytes "yz"], ⟨0, false⟩⟩ :=
    { printable :=
        { method := by decide, version := .inr rfl, plain := rfl
          path := ⟨bytes "a", rfl, one.1, by decide⟩
          query := .nil, fragment := .nil, sorted := List.Pairwise.nil, headers := nofun }
      method := by decide
      text := by decide +kernel
      nonempty := by decide +kernel
      first := ⟨_, rfl, by decide +kernel, by decide +kernel⟩
      small := by decide +kernel }
  have got : Arrives 4096 ⟨get, [get.dump], ⟨9, true⟩⟩ :=
    { printable :=
        { method := by decide, version := .inr rfl, plain := rfl
          path := ⟨bytes "b", rfl, one.2, by decide⟩
          query := .nil, fragment := .nil, sorted := List.Pairwise.nil, headers := nofun }
      method := by decide
      text := by decide +kernel
      nonempty := by decide +kernel
      first := ⟨_, rfl, by decide +kernel, by decide +kernel⟩
      small := by decide +kernel }
  have arrive : ∀ turn ∈ turns, turn.Arrives 4096 :=
    List.forall_mem_cons.mpr ⟨posted, List.forall_mem_cons.mpr ⟨got, nofun⟩⟩
  exact serve_eq_handleClient (by decide) casts _ arrive ⟨0, false⟩

end HttpServer

end Dwframe.Http
